import Unica.Workspace.PublishRuns

/-!
# The reverse walk

`rollback` takes the journals back item by item, the latest first. On a volume where
nothing fails any more every item goes, the rest of the journals still accounts for the
tree, and so at the end the tree is the one before the call.
-/

namespace Unica.Workspace

open Lib Lib.Call Tree Finmap List Option Directory Session Volume

variable {v₀ v v' : Volume} {t t' : Tree} {s s' : Session} {E : ApplyErrorKind → Volume → Prop}
  {removed : List PublishedRemoval} {c : PublishedChange} {Q : Unit → Volume → Prop}
  {rest : List PublishedRemoval}

/-- One call after another, each with what the ones before it reported. -/
theorem collect_ends {α β : Type} {f : α → Check (List β)} {I : List α → List β → Volume → Prop}
    (hstep : ∀ x rest acc v, I (x :: rest) acc v →
      Ends (f x) v (fun found v' => I rest (acc ++ found) v') E)
    (acc : List β) {xs : List α} (h : I xs acc v) :
    Ends (collect f xs) v (fun found v' => I [] (acc ++ found) v') E := by
  induction xs generalizing v acc with
  | nil =>
    refine .pure ?_
    rw [append_nil]
    exact h
  | cons x rest ih =>
    refine .bind ((hstep x rest acc v h).imp ?_ fun _ _ he => he)
    intro found v₁ h₁
    refine .bind ((ih _ h₁).imp ?_ fun _ _ he => he)
    intro more v₂ h₂
    rw [append_assoc] at h₂
    exact h₂

theorem Volume.calm_of_quiet (hquiet : v.fault = none) : v.Calm := by
  intro site n hfault
  rw [hquiet] at hfault
  cases hfault

theorem Tree.erase_of_none {k : Key} (h : t.lookup k = none) : t.erase k = t := by
  refine ext_lookup fun k' => ?_
  grind

/-- The latest item is taken back. -/
theorem Consistent.pop {w : Work} (h : Consistent v₀ s) (hworks : s.works = w :: s'.works)
    (hcreated : ∀ c ∈ s'.created, c ∈ s.created) (hremoved : ∀ r ∈ s'.removed, r ∈ s.removed)
    (hsound : s'.volume.Sound) (hreach : s.volume.Reaches t s'.volume)
    (hagree : AgreeOutside w.keys s.volume.tree t)
    (hback : ∀ k ∈ w.keys, t.lookup k = v₀.tree.lookup k) (hnested : Nested t s'.moves) :
    Consistent v₀ s' := by
  have hsub : ∀ w' ∈ s'.works, w' ∈ s.works := by
    intro w' hw'
    rw [hworks]
    exact mem_cons_of_mem _ hw'
  refine ⟨hsound, h.calm.reaches hreach, h.identity.trans hreach.identity,
    h.serial.trans hreach.serial, ?_, ?_, ?_, ?_, ?_, ?_⟩
  · have hjournal := h.journal
    rw [hworks] at hjournal
    rw [hreach.tree]
    exact hjournal.pop Work.stands_local hagree hback
  · exact fun w' hw' k hk => Name.settled_mono hreach.serial (h.names w' (hsub w' hw') k hk)
  · rw [hreach.tree]
    exact hnested
  · exact fun r hr => h.images r (hremoved r hr)
  · exact fun r hr w' hw' => h.outside r (hremoved r hr) w' (hsub w' hw')
  · exact fun c hc => h.settled c (hcreated c hc)

/-! ## Files -/

/-- A file of the transaction is removed under a name drawn for it. -/
theorem removeForRetainedApply_ends {file : RegularFile} {links : Nat} {bytes : Bytes}
    {kind : ArtifactKind} (hs : v.Sound) (hc : v.Calm)
    (hk : v.tree.lookup (file.parent.identity, file.name) = some (.file file.identity links bytes))
    (hok : ∀ v', v.Reaches (v.tree.erase (file.parent.identity, file.name)) v' → Q () v')
    (herr : ∀ e v', v.Reaches v.tree v' → v.fault ≠ none → E e v') :
    Ends (removeForRetainedApply kind file) v Q E := by
  refine .bind (drawName_ends fun v₁ hv₁ hdrawn => .mapError ?_)
  refine removeRegularForApply_ends hv₁ hs hc (hs.fresh_name le_rfl) ?_ hk hok fun e => herr _
  intro kind' serial heq
  cases heq
  exact hdrawn

theorem PublishedChange.Stands.target_not_directory (h : c.Stands v₀ t)
    (i : Nat) : t.lookup c.target ≠ some (.directory i) := by
  have hfile : ∀ file : RegularFile, file.New v₀ t c.parent c.name →
      t.lookup c.target ≠ some (.directory i) := by
    intro file hnew hlink
    obtain ⟨bytes, hfound⟩ := hnew.found
    rw [show c.target = (c.parent.identity, c.name) from rfl, hfound] at hlink
    cases hlink
  unfold Stands at h
  split at h
  · obtain ⟨-, file, -, hnew⟩ := h
    exact hfile file hnew
  · obtain ⟨-, hpublished⟩ := h
    split at hpublished
    · intro hlink
      rw [hpublished] at hlink
      cases hlink
    · exact hfile _ hpublished
  · exact h.elim

/-- The published file of a change goes; its target is free. -/
theorem rollbackPublished_ends (hs : v.Sound) (hquiet : v.fault = none) (h : c.Stands v₀ v.tree) :
    Ends (rollbackPublished c) v (fun _ v' => v.Reaches (v.tree.erase c.target) v') E := by
  obtain ⟨parent, path, name, recoveryName, kind, published, displaced⟩ := c
  have hremove : ∀ file, file.New v₀ v.tree parent name →
      Ends (rollbackPublished ⟨parent, path, name, recoveryName, kind, some file, displaced⟩) v
        (fun _ v' => v.Reaches (v.tree.erase (parent.identity, name)) v') E := by
    intro file hnew
    obtain ⟨bytes, hfound⟩ := hnew.found
    rw [← hnew.under, ← hnew.named] at hfound ⊢
    refine .bind (.reify (removeForRetainedApply_ends hs (calm_of_quiet hquiet)
      hfound ?_ ?_))
    · exact fun v' hv' => .pure hv'
    · exact fun _ _ _ hne => absurd hquiet hne
  have hnothing : v.tree.lookup (parent.identity, name) = none →
      Ends (rollbackPublished ⟨parent, path, name, recoveryName, kind, none, displaced⟩) v
        (fun _ v' => v.Reaches (v.tree.erase (parent.identity, name)) v') E := by
    intro hfree
    rw [erase_of_none hfree]
    exact .pure .refl
  cases recoveryName with
  | none =>
    cases displaced with
    | some _ => exact h.elim
    | none =>
      obtain ⟨-, file, hfile, hnew⟩ := h
      cases hfile
      exact hremove file hnew
  | some recoveryName =>
    cases displaced with
    | none => exact h.elim
    | some displaced =>
      obtain ⟨-, hpublished⟩ := h
      cases published with
      | none => exact hnothing hpublished
      | some file => exact hremove file hpublished

/-- The displaced file of a change returns, once its target is free. -/
theorem rollbackDisplaced_ends {Q : List RollbackFailure → Volume → Prop}
    (hs : v.Sound) (hquiet : v.fault = none) (h : c.Stands v₀ t)
    (hname : c.name.settled v.nextSerial = true) (htree : v.tree = t.erase c.target)
    (hok : ∀ found v' t', v.Reaches t' v' → v'.Sound → KeepsLinks v.tree t' →
      AgreeOutside c.keys t t' → (∀ k ∈ c.keys, t'.lookup k = v₀.tree.lookup k) → Q found v') :
    Ends (rollbackDisplaced c) v Q E := by
  obtain ⟨parent, path, name, recoveryName, kind, published, displaced⟩ := c
  cases recoveryName with
  | none =>
    cases displaced with
    | some _ => exact h.elim
    | none =>
      refine .pure (hok _ v v.tree .refl hs .refl ?_ ?_)
      · intro k hk
        have hne : k ≠ (parent.identity, name) := fun heq => hk (heq ▸ mem_cons_self)
        rw [htree]
        exact lookup_erase_ne hne
      · intro k hk
        rcases mem_singleton.mp hk with rfl
        rw [htree, h.1]
        exact lookup_erase _ _
  | some recoveryName =>
    cases displaced with
    | none => exact h.elim
    | some displaced =>
      obtain ⟨bytes, hbefore, hnow⟩ := h.1.moved
      have hunder := h.1.under
      have hnamed := h.1.named
      have hfree := h.1.free
      change v₀.tree.lookup (parent.identity, name) = _ at hbefore
      subst hnamed hunder
      have hne : displaced.name ≠ name := by
        intro heq
        rw [heq, hbefore] at hfree
        cases hfree
      have hat : v.tree.lookup (displaced.parent.identity, displaced.name) =
          some (.file displaced.identity 1 bytes) := by
        rw [htree, lookup_erase_ne fun heq => hne (congrArg Prod.snd heq)]
        exact hnow
      have hvacant : v.tree.lookup (displaced.parent.identity, name) = none := by
        rw [htree]
        exact lookup_erase _ _
      refine .bind (.get ?_)
      rw [hat]
      refine .bind (.reify (restoreRegular_ends hquiet rfl hat hvacant fun v₁ hv₁ => ?_))
      refine .pure (hok _ v₁ _ hv₁ ?_ ?_ ?_ ?_)
      · refine hs.move hat (fun kind' serial heq => ?_) hv₁
        subst heq
        exact (of_decide_eq_true hname).trans_le hv₁.serial
      · intro k i hlink
        grind
      · intro k hk
        simp only [PublishedChange.keys, PublishedChange.target, map_some,
          toList_some, mem_cons, not_mem_nil, or_false, not_or] at hk
        rw [lookup_moved, if_neg hk.1, if_neg hk.2, htree]
        exact lookup_erase_ne hk.1
      · intro k hk
        simp only [PublishedChange.keys, PublishedChange.target, map_some,
          toList_some, mem_cons, not_mem_nil, or_false] at hk
        rw [lookup_moved]
        rcases hk with rfl | rfl
        · rw [if_pos rfl, hbefore]
        · rw [if_neg fun heq => hne (congrArg Prod.snd heq), if_pos rfl, hfree]

theorem rollbackChange_ends {rest : List PublishedChange} {created : List CreatedDirectory}
    (h : Consistent v₀ ⟨v, c :: rest, created, removed⟩) (hquiet : v.fault = none) :
    Ends (rollbackChange c) v
      (fun _ v' => Consistent v₀ ⟨v', rest, created, removed⟩ ∧ v'.fault = none) E := by
  have hstands := h.change_stands mem_cons_self
  have hname := h.names (.change c) mem_cons_self c.target mem_cons_self
  refine .bind ((rollbackPublished_ends h.sound hquiet hstands).imp ?_ fun _ _ he => he)
  intro _ v₁ hv₁
  refine .bind (rollbackDisplaced_ends (h.sound.erase hv₁) (hv₁.quiet hquiet) hstands
    (Name.settled_mono hv₁.serial hname) hv₁.tree ?_)
  intro _ v₂ t₂ hv₂ hsound hlinks hagree hback
  refine .pure ⟨?_, (hv₁.trans hv₂).quiet hquiet⟩
  refine h.pop rfl (fun _ hc => hc) (fun _ hr => hr) hsound (hv₁.trans hv₂) hagree
    hback ?_
  -- only files were moved: every directory is where it was
  refine h.nested.keepsLinks fun k i hlink => hlinks k i ?_
  have hne : k ≠ c.target := by
    rintro rfl
    exact hstands.target_not_directory i hlink
  rw [hv₁.tree]
  exact (lookup_erase_ne hne).trans hlink

/-! ## Directories -/

/-- A directory no link leads to is no parent of a later item, unless its removal is one. -/
theorem Nested.parent_ne {works : List Work} {d : Nat} (h : Nested t works) (htop : d ≠ top)
    (hnone : ∀ k, t.lookup k ≠ some (.directory d))
    (hremoved : ∀ r, .removed r ∈ works → r.plan.image.identity ≠ d) :
    ∀ w ∈ works, (∀ c, w ≠ .change c) → ∀ k ∈ w.keys, k.1 ≠ d := by
  have hparent : ∀ {t : Tree} {p : Directory}, p.namedIdentityMatches t = true →
      (∀ k, t.lookup k ≠ some (.directory d)) → p.identity ≠ d := by
    rintro t p hmatch hno rfl
    rcases resolve_linked (matches_resolve hmatch) with heq | ⟨k, hk⟩
    · exact htop heq
    · exact hno k hk
  induction works generalizing t with
  | nil => exact fun _ hw => absurd hw not_mem_nil
  | cons w rest ih =>
    have hrest : ∀ r, .removed r ∈ rest → r.plan.image.identity ≠ d :=
      fun r hr => hremoved r (mem_cons_of_mem _ hr)
    cases w with
    | change c => exact forall_mem_cons.mpr ⟨fun hc => absurd rfl (hc c), ih h hnone hrest⟩
    | made c =>
      have hno : ∀ k, (t.erase c.key).lookup k ≠ some (.directory d) := by
        grind
      refine forall_mem_cons.mpr ⟨fun _ k hk => ?_, ih h.2 hno hrest⟩
      rcases mem_singleton.mp hk with rfl
      exact hparent h.1 hno
    | removed r =>
      have hno : ∀ k, (r.back t).lookup k ≠ some (.directory d) := by
        intro k hlink
        unfold PublishedRemoval.back at hlink
        grind
      refine forall_mem_cons.mpr ⟨fun _ k hk => ?_, ih h.2 hno hrest⟩
      have hk : k.1 = r.parent.identity := by
        rcases mem_cons.mp hk with rfl | hk
        · rfl
        · rw [mem_singleton.mp hk]
          rfl
      rw [hk]
      exact hparent h.1 hnone

/-- Nothing is left in the latest directory when the changes are taken back. -/
theorem Consistent.latest_made_empty {c : CreatedDirectory} {rest : List CreatedDirectory}
    (hs₀ : v₀.Sound) (h : Consistent v₀ ⟨v, [], c :: rest, removed⟩) (n : Name) :
    v.tree.lookup (c.directory.identity, n) = none := by
  have hstands := h.made_stands mem_cons_self
  have hlink := hstands.found
  obtain ⟨hparent, hnested⟩ : _ ∧ _ := h.nested
  have hnone : ∀ k, (v.tree.erase c.key).lookup k ≠ some (.directory c.directory.identity) := by
    intro k hk
    have := h.sound.unique k c.key c.directory.identity
    grind
  have htop : c.directory.identity ≠ top := by
    intro htop
    rw [htop] at hlink
    exact h.sound.unlinked _ hlink
  have hall : Nested (v.tree.erase c.key) (.made c :: moves ⟨v, [], rest, removed⟩) := by
    have hidem : (v.tree.erase c.key).erase c.key = v.tree.erase c.key :=
      erase_of_none (lookup_erase _ _)
    refine ⟨?_, ?_⟩
    · rw [hidem]
      exact hparent
    · rw [hidem]
      exact hnested
  have hapart := hall.parent_ne htop hnone fun r hr => by
    have hr' : r ∈ removed := by simpa [moves] using hr
    have hbefore := (h.removal_stands hr').before
    have hold := hs₀.identities _ _ hbefore
    have hnew := hstands.identity
    simp only [Node.identity] at hold
    omega
  have hframe := h.journal.frame (c.directory.identity, n) fun w hw hk => by
    refine hapart w hw (fun c' heq => ?_) _ hk rfl
    subst heq
    have hc' := mem_works_change.mp hw
    cases hc'
  rw [hframe]
  by_contra hsome
  have hold := hs₀.parents _ (isSome_iff_ne_none.mpr hsome)
  have hnew := hstands.identity
  omega

theorem removeEmptyForRetainedApply_ends {parent : Directory} {n : Name} {identity : Nat}
    {kind : ArtifactKind} (hs : v.Sound) (hc : v.Calm)
    (hok : ∀ v', v.tree.lookup (parent.identity, n) = some (.directory identity) →
      v.Reaches (v.tree.erase (parent.identity, n)) v' → Q () v')
    (herr : ∀ e v' name, v.Reaches v.tree v' → v.tree.lookup (parent.identity, name) = none →
      (v.tree.lookup (parent.identity, n) = some (.directory identity) →
        (v.tree.moved parent.identity n name (.directory identity)).isEmptyDirectory
          identity = true →
        parent.namedIdentityMatches (v.tree.moved parent.identity n name (.directory identity)) =
          true → v.fault ≠ none) → E e v') :
    Ends (removeEmptyForRetainedApply kind (.child parent n identity)) v Q E := by
  refine .bind (drawName_ends fun v₁ hv₁ _ => .mapError ?_)
  have hfree : v.tree.lookup (parent.identity, .artifact kind v.nextSerial) = none :=
    hs.fresh_name le_rfl
  exact removeEmptyForApply_ends hv₁ hc hfree hok fun e v₂ hv₂ => herr _ v₂ _ hv₂ hfree

theorem rollbackCreated_ends {c : CreatedDirectory} {rest : List CreatedDirectory} (hs₀ : v₀.Sound)
    (h : Consistent v₀ ⟨v, [], c :: rest, removed⟩) (hquiet : v.fault = none) :
    Ends (rollbackCreated c) v (fun _ v' => Consistent v₀ ⟨v', [], rest, removed⟩ ∧ v'.fault = none) E := by
  have hstands := h.made_stands mem_cons_self
  have hempty := h.latest_made_empty hs₀
  obtain ⟨hparent, hnested⟩ : _ ∧ _ := h.nested
  have hlink := hstands.found
  unfold rollbackCreated
  rw [hstands.shape]
  refine .bind (.reify (removeEmptyForRetainedApply_ends h.sound
    (calm_of_quiet hquiet) ?_ ?_))
  · intro v₁ _ hv₁
    refine .pure ⟨?_, hv₁.quiet hquiet⟩
    refine h.pop rfl (fun _ hc => mem_cons_of_mem _ hc) (fun _ hr => hr)
      (h.sound.erase hv₁) hv₁ ?_ ?_ hnested
    · intro k hk
      exact lookup_erase_ne fun heq => hk (mem_singleton.mpr heq)
    · intro k hk
      rcases mem_singleton.mp hk with rfl
      rw [hstands.free]
      exact lookup_erase _ _
  · intro e v₁ name _ hfree hstruck
    refine absurd hquiet (hstruck hlink ?_ ?_)
    · refine isEmptyDirectory_iff.mpr fun n => ?_
      have hother : c.directory.identity ≠ c.parent.identity := by
        intro heq
        have hinside := hempty c.name
        rw [heq, show (c.parent.identity, c.name) = c.key from rfl, hlink] at hinside
        cases hinside
      grind
    · refine KeepsLinks.matches (fun k i hk => ?_) hparent
      change (v.tree.erase (c.parent.identity, c.name)).lookup k = _ at hk
      grind

/-- A removed directory that is as it was passes its validation. -/
theorem imageValidate_quiet {image : DirectoryImage} {directory : Directory} (hquiet : v.fault = none)
    (hmatch : directory.namedIdentityMatches v.tree = true)
    (hidentity : directory.identity = image.identity) (hstands : image.stands v.tree = true)
    (hok : ∀ v', v.Reaches v.tree v' → Q () v') : Ends (image.validate directory) v Q E := by
  refine .bind (.mapError (validateNamedIdentity_ends .refl ?_ ?_))
  · intro v₁ hv₁ _
    refine .bind (.get ?_)
    refine .bind (.ensure (fun _ => ?_) fun hne => absurd hidentity hne)
    rw [hv₁.tree]
    exact .ensure (fun _ => hok v₁ hv₁) fun hne => absurd hstands hne
  · exact fun _ _ _ hstruck => absurd hquiet (hstruck hmatch).ne_none

/-- The tree with a removed directory back under its name. -/
theorem Consistent.popRemoved {r : PublishedRemoval}
    (h : Consistent v₀ ⟨v, [], [], r :: rest⟩) (hv' : v.Reaches (r.back v.tree) v') :
    Consistent v₀ ⟨v', [], [], rest⟩ := by
  have hstands := h.removal_stands mem_cons_self
  have hfound := hstands.found
  have hname := h.names (.removed r) mem_cons_self r.target mem_cons_self
  have hne : r.recoveryKey ≠ r.target := by
    intro heq
    have hfree := hstands.free
    rw [heq, hstands.before] at hfree
    cases hfree
  have hlookup : ∀ k, (r.back v.tree).lookup k = if k = r.target then
      some (.directory r.plan.image.identity) else if k = r.recoveryKey then none
        else v.tree.lookup k := fun k => lookup_moved
  refine h.pop rfl (fun _ hc => hc) (fun _ hr => mem_cons_of_mem _ hr) ?_ hv'
    ?_ ?_ h.nested.2
  · refine h.sound.move hfound (fun kind serial heq => ?_) hv'
    rw [show r.target.2 = r.name from rfl, heq] at hname
    exact (of_decide_eq_true hname).trans_le hv'.serial
  · intro k hk
    simp only [Work.keys, mem_cons, not_mem_nil, or_false, not_or] at hk
    rw [hlookup, if_neg hk.1, if_neg hk.2]
  · intro k hk
    simp only [Work.keys, mem_cons, not_mem_nil, or_false] at hk
    rw [hlookup]
    rcases hk with rfl | rfl
    · rw [if_pos rfl, hstands.before]
    · rw [if_neg hne, if_pos rfl, hstands.free]

theorem rollbackRemoval_ends {r : PublishedRemoval}
    (h : Consistent v₀ ⟨v, [], [], r :: rest⟩) (hquiet : v.fault = none) :
    Ends (rollbackRemoval r) v (fun _ v' => Consistent v₀ ⟨v', [], [], rest⟩ ∧ v'.fault = none) E := by
  have hstands := h.removal_stands mem_cons_self
  have hfound := hstands.found
  have hparent := h.nested.1
  have hmatch : r.recovery.namedIdentityMatches v.tree = true := by
    rw [hstands.shape]
    exact matches_child.mpr ⟨hparent, hfound⟩
  have hidentity : r.recovery.identity = r.plan.image.identity := by
    rw [hstands.shape]
    rfl
  refine .bind (.reify (imageValidate_quiet hquiet hmatch hidentity
    (h.image_stands mem_cons_self) fun v₁ hv₁ => ?_))
  rw [hstands.shape]
  unfold restoreDisplacedDirectoryChildNoReplace
  refine .bind (.reify (moveDirectory_ends hv₁ ?_ ?_ ?_))
  · exact fun v₂ _ _ hv₂ => .pure ⟨h.popRemoved hv₂, hv₂.quiet hquiet⟩
  · intro e v₂ _ hstruck
    refine absurd hquiet (hstruck r.parent rfl rfl hfound ?_ hstands.gone)
    intro heq
    have hfree := hstands.free
    rw [show r.recoveryKey = r.target from congrArg (r.parent.identity, ·) heq,
      hstands.before] at hfree
    cases hfree
  · exact fun _ v₂ _ _ hv₂ => .pure ⟨h.popRemoved hv₂, hv₂.quiet hquiet⟩

/-! ## The whole walk -/

/-- Whatever a publication did, the reverse walk leads back to the tree before the call. -/
theorem rollback_ends (hs₀ : v₀.Sound) (h : Consistent v₀ s) :
    Ends (rollback s) { s.volume with fault := none } (fun _ v' => v'.tree = v₀.tree) E := by
  obtain ⟨v, published, created, removed⟩ := s
  have hstart : v.Reaches v.tree { v with fault := none } := ⟨rfl, le_rfl, le_rfl, .inl rfl⟩
  refine .bind ((collect_ends (I := fun changes _ v' =>
    Consistent v₀ ⟨v', changes, created, removed⟩ ∧ v'.fault = none) ?_ []
      ⟨h.same hstart, rfl⟩).imp ?_ fun _ _ he => he)
  · exact fun c rest _ v' hv' => rollbackChange_ends hv'.1 hv'.2
  intro _ v₁ h₁
  refine .bind ((collect_ends (I := fun directories _ v' =>
    Consistent v₀ ⟨v', [], directories, removed⟩ ∧ v'.fault = none) ?_ [] h₁).imp ?_ fun _ _ he => he)
  · exact fun c rest _ v' hv' => rollbackCreated_ends hs₀ hv'.1 hv'.2
  intro _ v₂ h₂
  refine .bind ((collect_ends (I := fun removals _ v' =>
    Consistent v₀ ⟨v', [], [], removals⟩ ∧ v'.fault = none) ?_ [] h₂).imp ?_ fun _ _ he => he)
  · exact fun r rest _ v' hv' => rollbackRemoval_ends hv'.1 hv'.2
  intro _ v₃ h₃
  exact .pure h₃.1.journal.eq_of_empty

end Unica.Workspace
