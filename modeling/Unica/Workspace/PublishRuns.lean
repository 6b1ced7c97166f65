import Unica.Workspace.Checks

/-!
# Publication keeps the journals complete

Every step of the publication, whether it succeeds or fails, leaves a session whose
journals account for the whole difference to the tree before the call. As long as it
succeeds, every journalled item also belongs to an entry or a removal of the plan.
-/

namespace Unica.Workspace

open Lib Lib.Call Name Tree Table Directory List DirectoryImage Entry PublicationError Session

variable {txn : Transaction} {v₀ v v' : Volume} {s : Session} {t : Tree}
variable {e : Entry} {parent directory : Directory} {b : Binding} {name : Name} {before : List Name}
  {plan : DirectoryRemoval}

/-- The plan names nothing the transaction will draw. -/
structure Transaction.Settled (txn : Transaction) (v₀ : Volume) : Prop where
  entries : ∀ e ∈ txn.entries, ∀ name ∈ e.root.fullPath ++ e.relativePath,
    name.settled v₀.nextSerial = true
  removals : ∀ plan ∈ txn.removals, ∀ name ∈ plan.root.fullPath ++ plan.relative,
    name.settled v₀.nextSerial = true
  images : ∀ plan ∈ txn.removals, ∀ name ∈ plan.image.names, name.settled v₀.nextSerial = true

/-- Every journalled item belongs to the plan. -/
structure Traced (txn : Transaction) (s : Session) : Prop where
  changes : ∀ c ∈ s.published, ∃ e ∈ txn.entries, e.original ≠ e.current ∧ c.name = e.name ∧
    s.volume.tree.resolve top (e.base ++ e.missing) = some c.parent.identity
  made : ∀ c ∈ s.created, ∃ e ∈ txn.entries, e.original ≠ e.current ∧ ∃ before,
    before ++ [c.name] <+: e.missing ∧
      s.volume.tree.resolve top (e.base ++ before) = some c.parent.identity
  removed : ∀ r ∈ s.removed, r.plan ∈ txn.removals ∧ ∃ names, r.plan.relative = names ++ [r.name] ∧
    Below r.plan.root names r.parent

structure Good (txn : Transaction) (v₀ : Volume) (s : Session) : Prop where
  consistent : Consistent v₀ s
  traced : Traced txn s

theorem Traced.keepsLinks (h : Traced txn s) (hlinks : KeepsLinks s.volume.tree v'.tree) :
    Traced txn { s with volume := v' } where
  changes := by
    intro c hc
    obtain ⟨e, he, hchanged, hname, hway⟩ := h.changes c hc
    exact ⟨e, he, hchanged, hname, hlinks.resolve hway⟩
  made := by
    intro c hc
    obtain ⟨e, he, hchanged, before, hbefore, hway⟩ := h.made c hc
    exact ⟨e, he, hchanged, before, hbefore, hlinks.resolve hway⟩
  removed := h.removed

theorem Good.same (h : Good txn v₀ s) (hr : s.volume.Reaches s.volume.tree v') :
    Good txn v₀ { s with volume := v' } :=
  ⟨h.consistent.same hr, h.traced.keepsLinks (hr.tree ▸ KeepsLinks.refl)⟩

/-! ## Removed directories -/

theorem Consistent.image_apart (h : Consistent v₀ s) (hcreated : s.created = [])
    (hpublished : s.published = []) {image : DirectoryImage} (hstands : image.stands s.volume.tree = true)
    (hnames : ∀ name ∈ image.names, name.settled v₀.nextSerial = true) :
    ∀ w ∈ s.works, ∀ k ∈ w.keys, k.1 ∉ image.directories := by
  intro w hw k hk hin
  simp only [works, moves, hcreated, hpublished, map_nil, nil_append, mem_map] at hw
  obtain ⟨r, hr, rfl⟩ := hw
  have hr' := h.removal_stands hr
  have hparent : k.1 = r.recoveryKey.1 := by
    rcases mem_cons.mp hk with rfl | hk
    · rfl
    · rw [mem_singleton.mp hk]
  -- the recovery name stands in that directory, but an image has names of the plan only
  obtain ⟨hinside, -⟩ := stands_inside hstands (hparent ▸ hin)
  have hname := hnames _ (hinside r.recoveryName (by
    change (s.volume.tree.lookup r.recoveryKey).isSome = true
    rw [hr'.found]
    rfl))
  rw [hr'.drawn] at hname
  cases hname

/-- A directory found at its place and moved away is journalled. -/
theorem Good.pushRemoved
    {kind : ArtifactKind} {serial : Nat} (hset : txn.Settled v₀) (hplan : plan ∈ txn.removals)
    (h : Good txn v₀ s) (hcreated : s.created = []) (hpublished : s.published = [])
    (hfound : plan.Found s.volume.tree parent name directory)
    (hserial : s.volume.nextSerial ≤ serial) (hdrawn : serial < v'.nextSerial)
    (hreach : s.volume.Reaches (s.volume.tree.moved parent.identity name (.artifact kind serial)
      (.directory plan.image.identity)) v') :
    Good txn v₀ { s with
      volume := v'
      removed := ⟨plan, parent, name, .child parent (.artifact kind serial) plan.image.identity,
        .artifact kind serial⟩ :: s.removed } := by
  have hc := h.consistent
  obtain ⟨names, hrelative, hbelow⟩ := hfound.way
  have hparentNames : ∀ n ∈ parent.fullPath, n.settled v₀.nextSerial = true := by
    intro n hn
    rw [hbelow.fullPath] at hn
    refine hset.removals plan hplan n ?_
    rw [hrelative]
    simp only [mem_append] at hn ⊢
    exact hn.imp id .inl
  have hname : name.settled v₀.nextSerial = true := by
    refine hset.removals plan hplan name ?_
    rw [hrelative]
    exact mem_append_right _ (mem_append_right _ mem_cons_self)
  have hapart := hc.image_apart hcreated hpublished hfound.stands (hset.images plan hplan)
  have hfree : s.volume.tree.lookup (parent.identity, .artifact kind serial) = none :=
    hc.sound.fresh_name hserial
  have hnotin : ∀ w ∈ s.works, (parent.identity, name) ∉ w.keys := fun w hw =>
    hc.not_mem_of_directory hcreated hpublished hfound.linked hname hw
  have hnotin' : ∀ w ∈ s.works, (parent.identity, artifact kind serial) ∉ w.keys :=
    fun w hw => hc.not_mem_of_drawn hserial hw
  have hbefore : v₀.tree.lookup (parent.identity, name) =
      some (.directory plan.image.identity) := by
    rw [← hc.journal.frame _ hnotin]
    exact hfound.linked
  have hbeforeFree : v₀.tree.lookup (parent.identity, .artifact kind serial) = none := by
    rw [← hc.journal.frame _ hnotin']
    exact hfree
  have hne : (parent.identity, name) ≠ (parent.identity, artifact kind serial) := by
    intro heq
    rw [heq, hbeforeFree] at hbefore
    cases hbefore
  refine ⟨hc.pushRemoved ?_ hreach hcreated hfound.linked hfree ?_ (fun w hw =>
    ⟨hnotin w hw, hnotin' w hw⟩) ?_ (decide_eq_true hdrawn) hfound.parent_matches ?_ ?_ ?_ hapart,
    ?_⟩
  · refine hc.sound.move hfound.linked (fun kind' serial' heq => ?_) hreach
    cases heq
    exact hdrawn
  · refine ⟨rfl, not_settled (hc.serial.trans hserial), hbefore, hbeforeFree, ?_, ?_⟩
    · change v'.tree.lookup (parent.identity, .artifact kind serial) = _
      rw [hreach.tree, lookup_moved, if_pos rfl]
    · change v'.tree.lookup (parent.identity, name) = _
      rw [hreach.tree, lookup_moved, if_neg hne, if_pos rfl]
  · exact settled_mono (hc.serial.trans hreach.serial) hname
  · refine stands_of_agree hfound.stands fun x hx n => ?_
    exact (hc.journal.frame (x, n) fun w hw hk => hapart w hw _ hk hx).symm
  · refine not_inside hc.sound hfound.stands hfound.linked
      (matches_resolve hfound.parent_matches) fun p' hpre => ?_
    exact not_on_own_way hc.sound hfound.parent_matches hpre
  · exact fun r' hr' => hc.parent_outside hfound.parent_matches hparentNames hr'
  · refine ⟨?_, ?_, ?_⟩
    · intro c hmem
      rw [hpublished] at hmem
      cases hmem
    · intro c hmem
      rw [hcreated] at hmem
      cases hmem
    · intro r hr
      rcases mem_cons.mp hr with rfl | hr
      · exact ⟨hplan, names, hrelative, hbelow⟩
      · exact h.traced.removed r hr

theorem publishDirectory_ends (hset : txn.Settled v₀)
    (hplan : plan ∈ txn.removals) (h : Good txn v₀ s) (hcreated : s.created = [])
    (hpublished : s.published = []) :
    Ends (publishDirectory plan) s (fun _ s' => Good txn v₀ s' ∧ s'.created = [] ∧ s'.published = [] ∧
        ∃ r, s'.removed = r :: s.removed ∧ r.plan = plan)
      fun _ s' => Consistent v₀ s' := by
  refine .bind (validateSource_reads.onVolume ?_ fun _ _ hv => h.consistent.same hv)
  rintro ⟨parent, name, directory⟩ v₁ hv₁ hfound
  refine .bind (onVolume_ends (drawName_ends fun v₂ hv₂ hdrawn => ?_))
  have hgood₁ := h.same hv₁
  rw [← hv₁.tree] at hfound
  have hdirectory : directory = .child parent name plan.image.identity := hfound.directory_eq
  subst hdirectory
  have hpush : ∀ v₃, v₂.Reaches (v₁.tree.moved parent.identity name
      (.artifact .directoryStage v₁.nextSerial) (.directory plan.image.identity)) v₃ → _ :=
    fun v₃ hv₃ => Good.pushRemoved hset hplan hgood₁ hcreated hpublished hfound le_rfl
      (hdrawn.trans_le hv₃.serial) (hv₂.trans hv₃)
  refine .bind (.reify (onVolume_ends (moveDirectory_ends hv₂.here ?_ ?_ ?_)))
  · intro v₃ _ _ hv₃
    exact .modify ⟨hpush v₃ hv₃, hcreated, hpublished, _, rfl, rfl⟩
  · intro e v₃ hv₃ _
    exact (hgood₁.same (hv₂.trans hv₃)).consistent
  · intro e v₃ _ _ hv₃
    exact (hpush v₃ hv₃).consistent

/-- A new node under a settled name of a retained directory. -/
theorem Consistent.sound_insert {node : Node} (hc : Consistent v₀ s)
    (hparent : parent.namedIdentityMatches s.volume.tree = true) (hname : name.settled v'.nextSerial = true)
    (hr : s.volume.Reaches (s.volume.tree.insert (parent.identity, name) node) v')
    (hfrom : s.volume.nextIdentity ≤ node.identity) (hto : node.identity < v'.nextIdentity) : v'.Sound := by
  refine @Volume.Sound.insert _ v' hc.sound (parent.identity, name) node ?_ hfrom hto ?_ hr
  · exact (identity_lt hc.sound hparent).trans_le hr.identity
  · intro kind serial heq
    subst heq
    exact of_decide_eq_true hname

/-! ## Missing parents -/

/-- A retained directory changes may be made in. -/
structure Parent (v₀ : Volume) (s : Session) (directory : Directory) : Prop where
  matches_names : directory.namedIdentityMatches s.volume.tree = true
  settled : ∀ name ∈ directory.fullPath, name.settled v₀.nextSerial = true

/-- A directory with nothing in it before the call. -/
def Vacant (v₀ : Volume) (directory : Directory) : Prop :=
  ∀ name, v₀.tree.lookup (directory.identity, name) = none

theorem Parent.keepsLinks (h : Parent v₀ s directory)
    (hlinks : KeepsLinks s.volume.tree t) {published : List PublishedChange}
    {created : List CreatedDirectory} {removed : List PublishedRemoval} (hv : v'.tree = t) :
    Parent v₀ ⟨v', published, created, removed⟩ directory :=
  ⟨by
    rw [hv]
    exact hlinks.matches h.matches_names, h.settled⟩

theorem vacant_of_new (hs : v₀.Sound)
    (h : v₀.nextIdentity ≤ directory.identity) : Vacant v₀ directory := by
  intro name
  by_contra hne
  have := hs.parents _ (Option.isSome_iff_ne_none.mpr hne)
  omega

theorem keepsLinks_insert {k : Key} {node : Node} (hfree : t.lookup k = none) :
    KeepsLinks t (t.insert k node) := by
  intro k' i hk'
  grind

/-- The state of a chain of parents while it is made for one entry. -/
structure OnChain (txn : Transaction) (v₀ : Volume) (e : Entry) (before : List Name)
    (directory : Directory) (s : Session) : Prop where
  good : Good txn v₀ s
  parent : Parent v₀ s directory
  way : s.volume.tree.resolve top (e.base ++ before) = some directory.identity

theorem OnChain.same (h : OnChain txn v₀ e before directory s) (hr : s.volume.Reaches s.volume.tree v') :
    OnChain txn v₀ e before directory { s with volume := v' } :=
  ⟨h.good.same hr, h.parent.keepsLinks .refl hr.tree, by
    rw [hr.tree]
    exact h.way⟩

theorem Entry.name_settled (hset : txn.Settled v₀) (he : e ∈ txn.entries) :
    e.name.settled v₀.nextSerial = true :=
  hset.entries e he _ (mem_append_right _ (mem_append_right _ mem_cons_self))

theorem Entry.missing_settled (hset : txn.Settled v₀) (he : e ∈ txn.entries) (h : name ∈ e.missing) :
    name.settled v₀.nextSerial = true :=
  hset.entries e he _ (mem_append_right _ (mem_append_left _ (mem_append_right _ h)))

/-- The entry is one of those the transaction changes. -/
structure Writes (txn : Transaction) (v₀ : Volume) (e : Entry) : Prop where
  sound : v₀.Sound
  settled : txn.Settled v₀
  mem : e ∈ txn.entries
  changed : e.original ≠ e.current

theorem createParent_ends (he : Writes txn v₀ e)
    (hnext : before ++ [name] <+: e.missing) (h : OnChain txn v₀ e before parent s)
    (hfree : v₀.tree.lookup (parent.identity, name) = none) :
    Ends (createParent parent name) s
      (fun directory s' => OnChain txn v₀ e (before ++ [name]) directory s' ∧ Vacant v₀ directory)
      fun _ s' => Consistent v₀ s' := by
  have hname := missing_settled he.settled he.mem (hnext.subset (mem_append_right _ mem_cons_self))
  refine .bind (onVolume_ends (drawName_ends fun v₁ hv₁ hdrawn => ?_))
  have hc := h.good.consistent
  have hmatch₀ := h.parent.matches_names
  have hprivate : s.volume.tree.lookup (parent.identity,
      .artifact .directoryStage s.volume.nextSerial) = none := hc.sound.fresh_name le_rfl
  have hpath : ∀ {directory : Directory} {name' : Name} {v₂ : Volume},
      Made s.volume parent name' directory v₂ → name'.settled v₀.nextSerial = true →
      ∀ n ∈ directory.fullPath, n.settled v₀.nextSerial = true := by
    intro directory name' v₂ hmade hname' n hn
    rw [hmade.shape] at hn
    rcases mem_append.mp hn with hn | hn
    · exact h.parent.settled n hn
    · rw [mem_singleton.mp hn]
      exact hname'
  -- whatever name the new directory has, the journal takes it
  have hpush : ∀ {directory : Directory} {name' : Name} {published : Bool} {v₂ : Volume},
      Made s.volume parent name' directory v₂ → v₀.tree.lookup (parent.identity, name') = none →
      (∀ w ∈ s.works, (parent.identity, name') ∉ w.keys) →
      name'.settled v₂.nextSerial = true →
      (published = true → name'.settled v₀.nextSerial = true) →
      Consistent v₀ { s with
        volume := v₂, created := ⟨parent, name', directory, published⟩ :: s.created } := by
    intro directory name' published v₂ hmade hbefore hnew hsettled hpublic
    refine hc.pushMade hmade ?_ hbefore hnew hsettled hmatch₀ (fun r hr => ?_)
      fun hp => hpath hmade (hpublic hp)
    · exact hc.sound_insert hmatch₀ hsettled hmade.reaches hmade.from_new hmade.to_new
    · exact hc.parent_outside hmatch₀ h.parent.settled hr
  have hpublicName : ∀ {directory : Directory} {published : Bool} {v₂ : Volume},
      Made s.volume parent name directory v₂ → Consistent v₀ { s with
        volume := v₂, created := ⟨parent, name, directory, published⟩ :: s.created } :=
    fun hmade => hpush hmade hfree (fun _ => hc.not_mem_of_free hfree hmade.free hname)
      (settled_mono (hc.serial.trans hmade.reaches.serial) hname) fun _ => hname
  refine .bind (.reify (onVolume_ends (createDirectory_ends hv₁ hc.calm hprivate ?_ ?_ ?_)))
  · intro directory v₂ hmade hmatch
    have hlinks : KeepsLinks s.volume.tree v₂.tree := by
      rw [hmade.reaches.tree]
      exact keepsLinks_insert hmade.free
    refine .bind (.modify (.pure ⟨⟨⟨hpublicName hmade, ?_⟩, ⟨hmatch, hpath hmade hname⟩, ?_⟩, ?_⟩))
    · have htraced := h.good.traced.keepsLinks hlinks
      refine ⟨htraced.changes, ?_, htraced.removed⟩
      intro c hc
      rcases mem_cons.mp hc with rfl | hc
      · exact ⟨e, he.mem, he.changed, before, hnext, hlinks.resolve h.way⟩
      · exact htraced.made c hc
    · rw [← append_assoc]
      refine resolve_snoc.mpr ⟨parent.identity, hlinks.resolve h.way, ?_⟩
      rw [hmade.reaches.tree, lookup_insert_ite, if_pos rfl]
    · exact vacant_of_new he.sound (hc.identity.trans hmade.from_new)
  · intro error v₂ hv₂
    exact hc.same hv₂
  · intro error directory name' published v₂ hwhich hmade
    refine .bind (.modify (.throw ?_))
    rcases hwhich with rfl | ⟨rfl, rfl, hserial⟩
    · exact hpublicName hmade
    · have hnew : ∀ w ∈ s.works,
          (parent.identity, artifact .directoryStage s.volume.nextSerial) ∉ w.keys :=
        fun w hw => hc.not_mem_of_drawn le_rfl hw
      refine hpush hmade ?_ hnew (decide_eq_true (hdrawn.trans_le hserial)) fun hp => by cases hp
      rw [← hc.journal.frame _ hnew]
      exact hprivate

/-- A parent made earlier is used again. -/
theorem ownedDirectoryChild_ends
    {Q : Option Directory → Session → Prop} {E : ApplyErrorKind → Session → Prop} (hnone : Q none s)
    (hsome : ∀ c v', c ∈ s.created → c.published = true →
      c.parent.identity = parent.identity → c.name = name →
      c.directory.namedIdentityMatches s.volume.tree = true →
      s.volume.Reaches s.volume.tree v' → Q (some c.directory) { s with volume := v' })
    (herr : ∀ e v', s.volume.Reaches s.volume.tree v' → E e { s with volume := v' }) :
    Ends (ownedDirectoryChild parent name) s Q E := by
  refine .bind (.get ?_)
  generalize hfind : find? _ s.created.reverse = found
  rcases found with _ | c
  · exact hnone
  · dsimp only
    have hmem := mem_reverse.mp (mem_of_find?_eq_some hfind)
    have hcond := find?_some hfind
    simp only [Bool.and_eq_true, decide_eq_true_eq] at hcond
    refine .bind (checkNamedIdentity_reads.onVolume (fun _ v' hv hm => ?_) herr)
    exact hsome c v' hmem hcond.1.1 hcond.1.2 hcond.2 hm hv

theorem OnChain.owned {c : CreatedDirectory} (h : OnChain txn v₀ e before parent s) (hc : c ∈ s.created)
    (hpublished : c.published = true) (hparent : c.parent.identity = parent.identity)
    (hname : c.name = name) (hmatch : c.directory.namedIdentityMatches s.volume.tree = true) :
    OnChain txn v₀ e (before ++ [name]) c.directory s := by
  have hstands := h.good.consistent.made_stands hc
  refine ⟨h.good, ⟨hmatch, h.good.consistent.settled c hc hpublished⟩, ?_⟩
  rw [← append_assoc]
  refine resolve_snoc.mpr ⟨parent.identity, h.way, ?_⟩
  rw [← hparent, ← hname]
  exact hstands.found

theorem createChain_ends {names : List Name} (he : Writes txn v₀ e)
    (hsplit : e.missing = before ++ names) (h : OnChain txn v₀ e before parent s)
    (hfree : ∀ name ∈ names.head?, v₀.tree.lookup (parent.identity, name) = none)
    (hvacant : names = [] → Vacant v₀ parent) :
    Ends (createChain parent names) s
      (fun directory s' => OnChain txn v₀ e e.missing directory s' ∧ Vacant v₀ directory)
      fun _ s' => Consistent v₀ s' := by
  induction names generalizing s parent before with
  | nil =>
    rw [append_nil] at hsplit
    exact .pure ⟨hsplit ▸ h, hvacant rfl⟩
  | cons name rest ih =>
    have hsplit' : e.missing = (before ++ [name]) ++ rest := by
      rw [hsplit, append_assoc]
      rfl
    -- the parent one level further down has nothing from before the call
    have hnext : ∀ {directory : Directory} {s' : Session},
        OnChain txn v₀ e (before ++ [name]) directory s' → Vacant v₀ directory →
        Ends (createChain directory rest) s'
          (fun directory s' => OnChain txn v₀ e e.missing directory s' ∧ Vacant v₀ directory)
          fun _ s' => Consistent v₀ s' :=
      fun hon hvac => ih hsplit' hon (fun n _ => hvac n) fun _ => hvac
    refine .bind (ownedDirectoryChild_ends ?_ ?_ fun _ _ hv => h.good.consistent.same hv)
    · refine .bind (inspectChild_reads.onVolume ?_ fun _ _ hv => h.good.consistent.same hv)
      intro found v₁ hv₁ _
      rcases found with _ | _
      · refine .bind ((createParent_ends he ?_ (h.same hv₁)
          (hfree name rfl)).imp (fun directory s' hmade => hnext hmade.1 hmade.2) fun _ _ hc => hc)
        exact hsplit' ▸ prefix_append _ _
      · exact (h.same hv₁).good.consistent
    · intro c v₁ hmem hpublished hparent hname hmatch hv₁
      have hon := (h.owned hmem hpublished hparent hname hmatch).same hv₁
      have hstands := h.good.consistent.made_stands hmem
      exact hnext hon (vacant_of_new he.sound hstands.identity)

/-! ## Changes -/

/-- The directory an entry's change is made in. -/
structure Target (txn : Transaction) (v₀ : Volume) (e : Entry) (b : Binding) (parent : Directory)
    (s : Session) : Prop where
  chain : OnChain txn v₀ e e.missing parent s
  free : e.original = none → v₀.tree.lookup (parent.identity, e.name) = none
  old : ∀ original, e.original = some original → ∃ identity,
    v₀.tree.lookup (parent.identity, e.name) = some (.file identity 1 original) ∧
      b.originalFile = some ⟨parent, e.name, identity⟩

theorem Binding.Fits.settled (he : Writes txn v₀ e) (h : b.Fits t e) :
    ∀ name ∈ b.ancestor.fullPath, name.settled v₀.nextSerial = true := by
  intro name hname
  rw [h.below.fullPath] at hname
  refine he.settled.entries e he.mem name ?_
  unfold relativePath
  simp only [mem_append] at hname ⊢
  tauto

/-- The parents are found or made, and the name is what the plan was made for. -/
theorem changeParent_ends (he : Writes txn v₀ e) (hfits : b.Fits v₀.tree e) (h : Good txn v₀ s) :
    Ends (changeParent e b) s (fun parent s' => Ends (onVolume parent.checkNamedIdentity) s'
        (fun _ s'' => Target txn v₀ e b parent s'') fun _ s'' => Consistent v₀ s'')
      fun _ s' => Consistent v₀ s' := by
  have hsettled := hfits.settled he
  rcases hmissing : e.missing with _ | ⟨first, rest⟩
  · have hparent : changeParent e b = pure b.ancestor := by
      unfold changeParent
      rw [hmissing]
    rw [hparent]
    refine .pure (checkNamedIdentity_reads.onVolume ?_ fun _ _ hv => h.consistent.same hv)
    intro _ v₁ hv₁ hmatch
    have hway := hfits.resolve hmatch
    refine ⟨⟨h.same hv₁, ⟨?_, hsettled⟩, ?_⟩, ?_, ?_⟩
    · change b.ancestor.namedIdentityMatches v₁.tree = true
      rw [hv₁.tree]
      exact hmatch
    · change v₁.tree.resolve _ _ = _
      rw [hv₁.tree, hmissing, append_nil]
      exact hway
    · exact hfits.absent hmissing
    · exact fun original ho => hfits.present original hmissing ho
  · have hparent : changeParent e b = (do
        let parent ← createParentChain e b
        onVolume (validateStateAtParent e parent e.original)
        pure parent) := by
      unfold changeParent
      rw [hmissing]
    obtain ⟨hnone, hfirst⟩ := hfits.missing first rest hmissing
    rw [hparent]
    refine .bind (.bind (checkNamedIdentity_reads.onVolume ?_ fun _ _ hv => h.consistent.same hv))
    intro _ v₁ hv₁ _
    refine .bind (checkNamedIdentity_reads.onVolume ?_
      fun _ _ hv => (h.same hv₁).consistent.same hv)
    intro _ v₂ hv₂ hmatch
    have hgood₂ := (h.same hv₁).same hv₂
    have hmatch₂ : b.ancestor.namedIdentityMatches v₂.tree = true := by
      rw [hv₂.tree]
      exact hmatch
    have hon : OnChain txn v₀ e [] b.ancestor { s with volume := v₂ } :=
      ⟨hgood₂, ⟨hmatch₂, hsettled⟩, by
        rw [append_nil]
        exact hfits.resolve hmatch₂⟩
    have hhead : ∀ name ∈ e.missing.head?, v₀.tree.lookup (b.ancestor.identity, name) = none := by
      intro name hname
      rw [hmissing] at hname
      cases hname
      exact hfirst
    refine (createChain_ends he rfl hon hhead fun hnil => ?_).imp ?_
      fun _ _ hc => hc
    · rw [hmissing] at hnil
      cases hnil
    · rintro directory s₃ ⟨hon₃, hvacant⟩
      refine .bind (validateStateAtParent_reads.onVolume ?_
        fun _ _ hv => hon₃.good.consistent.same hv)
      intro _ v₄ hv₄ _
      have hon₄ := hon₃.same hv₄
      refine .pure (checkNamedIdentity_reads.onVolume ?_ fun _ _ hv => hon₄.good.consistent.same hv)
      intro _ v₅ hv₅ _
      refine ⟨hmissing ▸ hon₄.same hv₅, fun _ => hvacant e.name, ?_⟩
      intro original ho
      rw [hnone] at ho
      cases ho

theorem Traced.pushChange {c : PublishedChange} (h : Traced txn s)
    (hlinks : KeepsLinks s.volume.tree v'.tree) (he : Writes txn v₀ e) (hname : c.name = e.name)
    (hway : s.volume.tree.resolve top (e.base ++ e.missing) = some c.parent.identity) :
    Traced txn { s with volume := v', published := c :: s.published } := by
  have hkept := h.keepsLinks hlinks
  refine ⟨fun c' hc' => ?_, hkept.made, hkept.removed⟩
  rcases mem_cons.mp hc' with rfl | hc'
  · exact ⟨e, he.mem, he.changed, hname, hlinks.resolve hway⟩
  · exact hkept.changes c' hc'

theorem publishCreate_ends {bytes : Bytes} (he : Writes txn v₀ e)
    (hnone : e.original = none) (h : Target txn v₀ e b parent s) :
    Ends (publishCreate e parent bytes) s (fun _ s' => Good txn v₀ s')
      fun _ s' => Consistent v₀ s' := by
  have hc := h.chain.good.consistent
  have hname := name_settled he.settled he.mem
  have hmatch := h.chain.parent.matches_names
  refine .bind (onVolume_ends (drawName_ends fun v₁ hv₁ hdrawn => ?_))
  -- the published file is the one entry the change has
  have hpush : ∀ {file : RegularFile} {v₂ : Volume},
      Published s.volume parent e.name bytes file v₂ →
      Good txn v₀ { s with
        volume := v₂
        published := ⟨parent, e.relativePath, e.name, none, .create, some file, none⟩ ::
          s.published } := by
    intro file v₂ hpub
    have hsettled := settled_mono (hc.serial.trans hpub.reaches.serial) hname
    have hlinks : KeepsLinks s.volume.tree
        (s.volume.tree.insert (parent.identity, e.name) (.file file.identity 1 bytes)) :=
      keepsLinks_insert hpub.free
    refine ⟨hc.pushChange ?_ hpub.reaches ?_ hlinks ?_ ?_ ?_ fun r hr =>
      hc.parent_outside hmatch h.chain.parent.settled hr,
      h.chain.good.traced.pushChange (hpub.reaches.tree ▸ hlinks) he rfl h.chain.way⟩
    · exact hc.sound_insert hmatch hsettled hpub.reaches hpub.from_new hpub.to_new
    · intro k hk
      have hne : k ≠ (parent.identity, e.name) := fun heq => hk (mem_singleton.mpr heq)
      rw [lookup_insert_ite, if_neg hne]
    · refine ⟨h.free hnone, file, rfl, hpub.parent, hpub.named,
        hc.identity.trans hpub.from_new, bytes, ?_⟩
      rw [lookup_insert_ite, if_pos rfl]
    · intro w hw k hk
      rw [mem_singleton.mp hk]
      exact hc.not_mem_of_free (h.free hnone) hpub.free hname hw
    · intro k hk
      rw [mem_singleton.mp hk]
      exact hsettled
  refine .bind (.reify (onVolume_ends (createRegular_ends hv₁ hc.sound hc.calm
    (identity_lt hc.sound hmatch) (hc.sound.fresh_name le_rfl) ?_ ?_ ?_ ?_)))
  · intro kind serial heq
    cases heq
    exact hdrawn
  · intro file v₂ hpub
    exact .modify (hpush hpub)
  · intro error v₂ hv₂
    exact hc.same hv₂
  · intro error file v₂ hpub
    exact (hpush hpub).consistent

/-- The new image of an update, once the old one is displaced. -/
theorem publishReplacement_ends {c : PublishedChange} {rest : List PublishedChange}
    {recoveryName : Name} {file : RegularFile} {bytes : Bytes} (h : Good txn v₀ s)
    (hs : s.published = c :: rest) (hrecovery : c.recoveryName = some recoveryName)
    (hdisplaced : c.displaced = some file) (hpublished : c.published = none)
    (hparent : Parent v₀ s c.parent) (hname : c.name.settled v₀.nextSerial = true) :
    Ends (publishReplacement c.parent c.name bytes) s (fun _ s' => Good txn v₀ s')
      fun _ s' => Consistent v₀ s' := by
  obtain ⟨parent, path, name, recovery, kind, published, displaced⟩ := c
  cases hrecovery
  cases hdisplaced
  cases hpublished
  have hc := h.consistent
  have hhead : (⟨parent, path, name, some recoveryName, kind, none, some file⟩ : PublishedChange) ∈
      s.published := by
    rw [hs]
    exact mem_cons_self
  obtain ⟨hdisplaces, -⟩ := hc.change_stands hhead
  refine .bind (onVolume_ends (drawName_ends fun v₁ hv₁ hdrawn => ?_))
  have hset : ∀ {new : RegularFile} {v₂ : Volume}, Published s.volume parent name bytes new v₂ →
      Good txn v₀ { s with
        volume := v₂
        published := ⟨parent, path, name, some recoveryName, kind, some new, some file⟩ ::
          rest } := by
    intro new v₂ hpub
    have hlinks : KeepsLinks s.volume.tree
        (s.volume.tree.insert (parent.identity, name) (.file new.identity 1 bytes)) :=
      keepsLinks_insert hpub.free
    refine ⟨hc.replaceChange hs rfl ?_ hpub.reaches ?_ hlinks ?_, ?_⟩
    · exact hc.sound_insert hparent.matches_names
        (settled_mono (hc.serial.trans hpub.reaches.serial) hname) hpub.reaches hpub.from_new
        hpub.to_new
    · intro k hk
      have hne : k ≠ (parent.identity, name) := fun heq => hk (mem_cons.mpr (.inl heq))
      rw [lookup_insert_ite, if_neg hne]
    · refine ⟨{ hdisplaces with moved := ?_ }, hpub.parent, hpub.named,
        hc.identity.trans hpub.from_new, bytes, ?_⟩
      · obtain ⟨old, hbefore, hmoved⟩ := hdisplaces.moved
        refine ⟨old, hbefore, ?_⟩
        rw [lookup_insert_ite, if_neg]
        · exact hmoved
        · intro heq
          rw [heq, hpub.free] at hmoved
          cases hmoved
      · rw [lookup_insert_ite, if_pos rfl]
    · have hkept := h.traced.keepsLinks (hpub.reaches.tree ▸ hlinks)
      refine ⟨fun c' hc' => ?_, hkept.made, hkept.removed⟩
      rcases mem_cons.mp hc' with rfl | hc'
      · have htraced := hkept.changes _ hhead
        exact htraced
      · exact hkept.changes c' (by rw [hs]; exact mem_cons_of_mem _ hc')
  refine .bind (.reify (onVolume_ends (createRegular_ends hv₁ hc.sound hc.calm
    (identity_lt hc.sound hparent.matches_names) (hc.sound.fresh_name le_rfl) ?_ ?_ ?_ ?_)))
  · intro kind serial heq
    cases heq
    exact hdrawn
  · intro new v₂ hpub
    refine .modify ?_
    simpa only [hs] using hset hpub
  · intro error v₂ hv₂
    refine .bind (.modify (.throw ?_))
    have hsame := hc.same hv₂
    simpa only [hs, beforeRename] using hsame
  · intro error new v₂ hpub
    refine .bind (.modify (.throw ?_))
    simpa only [hs, afterRename] using (hset hpub).consistent

/-- A file of the plan is moved to its recovery name. -/
theorem Target.pushDisplaced {serial identity links : Nat}
    {bytes original : Bytes} (kind : ChangeKind) (he : Writes txn v₀ e) (h : Target txn v₀ e b parent s)
    (hbefore : v₀.tree.lookup (parent.identity, e.name) = some (.file identity 1 original))
    (hnow : s.volume.tree.lookup (parent.identity, e.name) = some (.file identity links bytes))
    (hserial : s.volume.nextSerial ≤ serial) (hdrawn : serial < v'.nextSerial)
    (hreach : s.volume.Reaches (s.volume.tree.moved parent.identity e.name
      (.artifact .stage serial) (.file identity links bytes)) v') :
    Good txn v₀ { s with
      volume := v'
      published := ⟨parent, e.relativePath, e.name, some (.artifact .stage serial), kind, none,
        some ⟨parent, .artifact .stage serial, identity⟩⟩ :: s.published } := by
  have hc := h.chain.good.consistent
  have hname := name_settled he.settled he.mem
  have hold : ∀ w ∈ s.works, (parent.identity, e.name) ∉ w.keys := by
    intro w hw hk
    have hidentity := he.sound.identities _ _ hbefore
    have := hc.mem_works_cases hw hk
    grind [Node.identity]
  have hnew : ∀ w ∈ s.works, (parent.identity, artifact .stage serial) ∉ w.keys :=
    fun w hw => hc.not_mem_of_drawn hserial hw
  have hfree : s.volume.tree.lookup (parent.identity, .artifact .stage serial) = none :=
    hc.sound.fresh_name hserial
  have hbeforeFree : v₀.tree.lookup (parent.identity, .artifact .stage serial) = none := by
    rw [← hc.journal.frame _ hnew]
    exact hfree
  -- nobody touched the file, so it is the one the plan was made for
  have hsame : Node.file identity links bytes = .file identity 1 original := by
    have := hc.journal.frame _ hold
    rw [hnow, hbefore] at this
    exact Option.some.inj this
  cases hsame
  have hne : (parent.identity, e.name) ≠ (parent.identity, artifact .stage serial) := by
    intro heq
    rw [heq, hfree] at hnow
    cases hnow
  have hlinks : KeepsLinks s.volume.tree (s.volume.tree.moved parent.identity e.name
      (.artifact .stage serial) (.file identity 1 bytes)) := by
    intro k i hk
    grind
  refine ⟨hc.pushChange ?_ hreach ?_ hlinks ?_ ?_ ?_ fun r hr =>
    hc.parent_outside h.chain.parent.matches_names h.chain.parent.settled hr,
    h.chain.good.traced.pushChange (hreach.tree ▸ hlinks) he rfl h.chain.way⟩
  · refine hc.sound.move hnow (fun kind' serial' heq => ?_) hreach
    cases heq
    exact hdrawn
  · intro k hk
    have h₁ : k ≠ (parent.identity, .artifact .stage serial) := fun heq =>
      hk (mem_cons_of_mem _ (mem_singleton.mpr heq))
    have h₂ : k ≠ (parent.identity, e.name) := fun heq => hk (mem_cons.mpr (.inl heq))
    rw [lookup_moved, if_neg h₁, if_neg h₂]
  · refine ⟨⟨rfl, rfl, not_settled (hc.serial.trans hserial), ⟨bytes, hbefore, ?_⟩,
      hbeforeFree⟩, ?_⟩
    · rw [lookup_moved, if_pos rfl]
    · change (moved _ _ _ _ _).lookup (parent.identity, e.name) = none
      rw [lookup_moved, if_neg hne, if_pos rfl]
  · intro w hw k hk
    rcases mem_cons.mp hk with rfl | hk
    · exact hold w hw
    · rw [mem_singleton.mp hk]
      exact hnew w hw
  · intro k hk
    rcases mem_cons.mp hk with rfl | hk
    · exact settled_mono (hc.serial.trans hreach.serial) hname
    · rw [mem_singleton.mp hk]
      exact decide_eq_true hdrawn

theorem publishDisplacement_ends {identity : Nat} {original : Bytes} (he : Writes txn v₀ e)
    (h : Target txn v₀ e b parent s)
    (hbefore : v₀.tree.lookup (parent.identity, e.name) = some (.file identity 1 original)) :
    Ends (publishDisplacement e parent ⟨parent, e.name, identity⟩ original) s
      (fun _ s' => Good txn v₀ s') fun _ s' => Consistent v₀ s' := by
  have hname := name_settled he.settled he.mem
  refine .bind (onVolume_ends (drawName_ends fun v₁ hv₁ hdrawn => ?_))
  have hc := h.chain.good.consistent
  refine .bind (.mapError (onVolume_ends (displaceRegular_ends hv₁.here (hc.calm.reaches hv₁) ?_
    fun error v₂ hv₂ => hc.same (hv₁.trans hv₂))))
  intro v₂ links bytes hnow _ hv₂
  generalize (if e.current.isSome then ChangeKind.update else .remove) = kind
  have hgood₂ := Target.pushDisplaced kind he h hbefore hnow le_rfl
    (hdrawn.trans_le hv₂.serial) (hv₁.trans hv₂)
  refine .bind (.modify (.bind (validateDisplacedPreimage_reads.onVolume ?_
    fun _ _ hv => hgood₂.consistent.same hv)))
  intro _ v₃ hv₃ _
  have hgood₃ := hgood₂.same hv₃
  have hlinks : KeepsLinks s.volume.tree v₃.tree := by
    rw [hv₃.tree, hv₂.tree]
    intro k i hk
    grind
  rcases hcurrent : e.current with _ | image
  · exact hgood₃
  · exact publishReplacement_ends (c := ⟨parent, e.relativePath, e.name,
      some (.artifact .stage s.volume.nextSerial), kind, none,
      some ⟨parent, .artifact .stage s.volume.nextSerial, identity⟩⟩) hgood₃ rfl rfl rfl rfl
      (h.chain.parent.keepsLinks hlinks rfl) hname

/-- One planned change, for an entry that is bound to the tree before the call. -/
theorem publishChange_ends (hs₀ : v₀.Sound) (hset : txn.Settled v₀)
    (hbound : txn.Bound v₀.tree e b) (h : Good txn v₀ s) :
    Ends (publishChange e b) s (fun _ s' => Good txn v₀ s') fun _ s' => Consistent v₀ s' := by
  unfold publishChange
  by_cases hchanged : e.original = e.current
  · rw [if_pos hchanged]
    exact h
  rw [if_neg hchanged]
  by_cases hin : txn.directoryContains e = true
  · -- what is left of such an entry is a removal without a handle
    obtain ⟨hcurrent, hfile, hmissing⟩ := hbound.contained hin
    rcases horiginal : e.original with _ | original
    · rw [horiginal, hcurrent] at hchanged
      exact absurd rfl hchanged
    · have hnil : e.missing = [] := by
        rcases hmissing with hnone | hnil
        · rw [horiginal] at hnone
          cases hnone
        · exact hnil
      have hparent : changeParent e b = pure b.ancestor := by
        unfold changeParent
        rw [hnil]
      rw [hparent, hfile]
      refine .bind (.pure (.bind (checkNamedIdentity_reads.onVolume ?_
        fun _ _ hv => h.consistent.same hv)))
      exact fun _ v₁ hv₁ _ => h.consistent.same hv₁
  · have hfits := hbound.fits (Bool.not_eq_true _ ▸ hin)
    have he : Writes txn v₀ e := ⟨hs₀, hset, hbound.mem, hchanged⟩
    refine .bind ((changeParent_ends he hfits h).imp ?_ fun _ _ hc => hc)
    intro parent s₁ hcheck
    refine .bind (hcheck.imp ?_ fun _ _ hc => hc)
    intro _ s₂ htarget
    rcases horiginal : e.original with _ | original
    · rcases hcurrent : e.current with _ | bytes
      · exact htarget.chain.good.consistent
      · exact publishCreate_ends he horiginal htarget
    · obtain ⟨identity, hbefore, hfile⟩ := htarget.old original horiginal
      rw [hfile]
      exact publishDisplacement_ends he htarget hbefore

end Unica.Workspace
