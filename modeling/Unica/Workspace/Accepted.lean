import Unica.Workspace.PublishRuns

/-!
# What an accepted publication shows

A publication that passes its own validation shows every planned image at its path. One
that stops on the way still has journals that account for all it did.
-/

namespace Unica.Workspace

open Lib Lib.Call Tree List Directory Call Entry PublishedRemoval Option Bool

variable {txn : Transaction} {v₀ v v' : Volume} {s : Session} {t : Tree}
variable {parent : Directory} {names : List Name} {name : Name} {e : Entry} {b : Binding}
  {bound : List (Entry × Binding)}

/-! ## The removals stay journalled -/

/-- The call does not touch the journal of removals. -/
def KeepsRemoved {ε α : Type} (m : Call Session ε α) : Prop := ∀ s, (m s).2.removed = s.removed

namespace KeepsRemoved

variable {ε ε' α β : Type} {m : Call Session ε α} {f : α → Call Session ε β}

theorem bind (h : KeepsRemoved m) (hf : ∀ a, KeepsRemoved (f a)) : KeepsRemoved (m >>= f) := by
  intro s
  change (andThen m f s).2.removed = _
  unfold andThen
  have hs := h s
  rcases hm : m s with ⟨_ | a, s'⟩
  · rw [hm] at hs
    exact hs
  · rw [hm] at hs
    exact (hf a s').trans hs

theorem pure {a : α} : KeepsRemoved (pure a : Call Session ε α) := fun _ => rfl

theorem throw {e : ε} : KeepsRemoved (throw e : Call Session ε α) := fun _ => rfl

theorem get : KeepsRemoved (get : Call Session ε Session) := fun _ => rfl

theorem onVolume {m : Call Volume ε α} : KeepsRemoved (onVolume m) := fun _ => rfl

theorem reify (h : KeepsRemoved m) : KeepsRemoved (m.reify : Call Session ε' (Except ε α)) := h

theorem mapError {g : ε → ε'} (h : KeepsRemoved m) : KeepsRemoved (m.mapError g) := h

theorem each {g : β → Call Session ε Unit} {xs : List β} (h : ∀ x, KeepsRemoved (g x)) :
    KeepsRemoved (each g xs) := by
  induction xs with
  | nil => exact pure
  | cons x rest ih => exact bind (h x) fun _ => ih

end KeepsRemoved

theorem setPublished_keepsRemoved {file : Option RegularFile} : KeepsRemoved (setPublished file) := by
  intro s
  simp only [setPublished, Call.modify]
  split <;> rfl

theorem ownedDirectoryChild_keepsRemoved : KeepsRemoved (ownedDirectoryChild parent name) := by
  refine .bind .get fun s => ?_
  generalize find? _ s.created.reverse = found
  rcases found with _ | _
  · exact .pure
  · exact .bind .onVolume fun _ => .pure

theorem createParent_keepsRemoved : KeepsRemoved (createParent parent name) := by
  refine .bind .onVolume fun _ => .bind (.reify .onVolume) fun result => ?_
  rcases result with ⟨error, _ | ⟨directory, artifactName, published⟩⟩ | _
  · exact fun _ => rfl
  · exact fun _ => rfl
  · exact fun _ => rfl

theorem createChain_keepsRemoved : KeepsRemoved (createChain parent names) := by
  induction names generalizing parent with
  | nil => exact .pure
  | cons name rest ih =>
    refine .bind ownedDirectoryChild_keepsRemoved fun owned => ?_
    rcases owned with _ | _
    · refine .bind .onVolume fun found => ?_
      rcases found with _ | _
      · exact .bind createParent_keepsRemoved fun _ => ih
      · exact .throw
    · exact ih

theorem changeParent_keepsRemoved : KeepsRemoved (changeParent e b) := by
  unfold changeParent
  split
  · exact .pure
  · exact .bind (.bind .onVolume fun _ => .bind .onVolume fun _ => createChain_keepsRemoved)
      fun _ => .bind .onVolume fun _ => .pure

theorem publishReplacement_keepsRemoved {bytes : Bytes} :
    KeepsRemoved (publishReplacement parent name bytes) := by
  refine .bind .onVolume fun _ => .bind (.reify .onVolume) fun result => ?_
  rcases result with _ | _
  · exact .bind setPublished_keepsRemoved fun _ => .throw
  · exact setPublished_keepsRemoved

theorem publishChange_keepsRemoved : KeepsRemoved (publishChange e b) := by
  unfold publishChange
  split
  · exact .pure
  refine .bind changeParent_keepsRemoved fun parent => .bind .onVolume fun _ => ?_
  split
  · refine .bind .onVolume fun _ => .bind (.reify .onVolume) fun result => ?_
    rcases result with ⟨error, _ | _⟩ | _
    · exact fun _ => rfl
    · exact fun _ => rfl
    · exact fun _ => rfl
  · split
    · exact .throw
    · refine .bind .onVolume fun _ => .bind (.mapError .onVolume) fun _ => .bind (fun _ => rfl)
        fun _ => .bind .onVolume fun _ => ?_
      split
      · exact publishReplacement_keepsRemoved
      · exact .pure
  · exact .throw

theorem Ends.keepsRemoved {ε α : Type} {m : Call Session ε α} {Q : α → Session → Prop}
    {E : ε → Session → Prop} (h : Ends m s Q E) (hm : KeepsRemoved m) :
    Ends m s (fun a s' => Q a s' ∧ s'.removed = s.removed) E := by
  have hs := hm s
  unfold Call.Ends at h ⊢
  split at h
  · rename_i a s' heq
    rw [heq] at hs
    exact ⟨h, hs⟩
  · exact h

/-! ## Postimages -/

/-- What is at a path. -/
def Tree.find (t : Tree) (parents : List Name) (name : Name) : Option Node :=
  (t.resolve top parents).bind fun d => t.lookup (d, name)

section Find

variable {parents : List Name} {name : Name} {node : Node}

theorem Tree.find_eq_some : t.find parents name = some node ↔
    ∃ d, t.resolve top parents = some d ∧ t.lookup (d, name) = some node :=
  bind_eq_some_iff

theorem Tree.find_eq_none : t.find parents name = none ↔
    ∀ d, t.resolve top parents = some d → t.lookup (d, name) = none :=
  bind_eq_none_iff

/-- Nothing is at a path that leads through a name that is gone. -/
theorem Tree.find_none_below {d : Nat} {n : Name}
    (hway : t.resolve top names = some d) (hgone : t.lookup (d, n) = none)
    (hpre : names ++ [n] <+: parents ++ [name]) : t.find parents name = none := by
  refine find_eq_none.mpr fun d' hd' => ?_
  obtain ⟨rest, hrest⟩ := hpre
  rcases eq_nil_or_concat rest with rfl | ⟨rest', last, rfl⟩
  · rw [append_nil] at hrest
    obtain ⟨rfl, hlast⟩ := append_inj' hrest rfl
    cases hlast
    rw [hway] at hd'
    cases hd'
    exact hgone
  · rw [concat_eq_append, ← append_assoc] at hrest
    obtain ⟨rfl, -⟩ := append_inj' hrest rfl
    rw [append_assoc, resolve_append, hway] at hd'
    simp [resolve, hgone] at hd'

end Find

/-- A path holds nothing, or one file with these bytes. -/
def Tree.ShowsAt (t : Tree) (parents : List Name) (name : Name) : Option Bytes → Prop
  | none => t.find parents name = none
  | some bytes => ∃ identity, t.find parents name = some (.file identity 1 bytes)

theorem Tree.showsAt_of_shows {d : Nat} {parents : List Name}
    {image : Option Bytes} (hway : t.resolve top parents = some d) (h : t.Shows (d, name) image) :
    t.ShowsAt parents name image := by
  cases image with
  | none =>
    refine find_eq_none.mpr fun d' hd' => ?_
    rw [hway] at hd'
    cases hd'
    exact h
  | some bytes =>
    obtain ⟨identity, hfile⟩ := h
    exact ⟨identity, find_eq_some.mpr ⟨d, hway, hfile⟩⟩

/-- The planned image of an entry at its path. -/
def Entry.ShownIn (e : Entry) (t : Tree) : Prop :=
  t.ShowsAt (e.base ++ e.missing) e.name e.current

/-- A link from before the call is there still or was removed. -/
theorem Consistent.link_kept (h : Consistent v₀ s) {k : Key} {i : Nat}
    (hbefore : v₀.tree.lookup k = some (.directory i)) :
    s.volume.tree.lookup k = some (.directory i) ∨ s.volume.tree.lookup k = none ∧
      ∃ r ∈ s.removed, i = r.plan.image.identity := by
  by_cases hk : ∃ w ∈ s.works, k ∈ w.keys
  · obtain ⟨w, hw, hk⟩ := hk
    have := h.mem_works_cases hw hk
    grind
  · rw [h.journal.frame k fun w hw hmem => hk ⟨w, hw, hmem⟩]
    exact .inl hbefore

/-- A route from before the call leads where it led, unless that is inside a removed
directory: then it leads nowhere. -/
theorem Consistent.route_kept (h : Consistent v₀ s) {start a : Nat}
    (hbefore : v₀.tree.resolve start names = some a) :
    s.volume.tree.resolve start names = some a ∨ s.volume.tree.resolve start names = none ∧
      ∃ r ∈ s.removed, a ∈ r.plan.image.directories := by
  induction names generalizing start with
  | nil => exact .inl hbefore
  | cons name rest ih =>
    simp only [resolve] at hbefore ⊢
    split at hbefore
    · rename_i child hchild
      rcases h.link_kept hchild with hkept | ⟨hgone, r, hr, rfl⟩
      · rw [hkept]
        exact ih hbefore
      · rw [hgone]
        exact .inr ⟨rfl, r, hr, DirectoryImage.resolve_inside (h.images r hr) mem_cons_self hbefore⟩
    · cases hbefore

theorem ownedChain_observes (h : Consistent v₀ s) :
    Observes (ownedChain parent names) s fun directory =>
      s.volume.tree.resolve parent.identity names = some directory.identity ∧
        (names = [] ∨ ∃ c ∈ s.created, c.parent.identity = parent.identity) := by
  induction names generalizing parent with
  | nil => exact .pure ⟨rfl, .inl rfl⟩
  | cons name rest ih =>
    have howned : Observes (ownedDirectoryChild parent name) s fun owned => ∀ directory,
        owned = some directory → s.volume.tree.lookup (parent.identity, name) =
          some (.directory directory.identity) ∧
            ∃ c ∈ s.created, c.parent.identity = parent.identity := by
      rintro _ ⟨v₁, rfl, hv₁⟩
      refine ownedDirectoryChild_ends ⟨⟨v₁, rfl, hv₁⟩, nofun⟩ ?_
        fun _ v' hv => ⟨v', rfl, hv₁.stay hv⟩
      intro c v' hmem _ hparent hname _ hv
      refine ⟨⟨v', rfl, hv₁.stay hv⟩, fun directory heq => ?_⟩
      cases heq
      have hstands := h.made_stands hmem
      refine ⟨?_, c, hmem, by rw [hparent]⟩
      rw [← hparent, ← hname]
      exact hstands.found
    refine .bind howned fun owned hfound => ?_
    rcases owned with _ | directory
    · exact .throw
    · refine ih.imp fun last hlast => ?_
      obtain ⟨hlink, hcreated⟩ := hfound directory rfl
      refine ⟨?_, .inr hcreated⟩
      simp only [resolve, hlink]
      exact hlast.1

theorem validatePostimage_observes (h : Consistent v₀ s)
    (hfits : b.Fits v₀.tree e) : Observes (validatePostimage e b) s fun _ => e.ShownIn s.volume.tree := by
  unfold validatePostimage ShownIn
  rcases hmissing : e.missing with _ | ⟨first, rest⟩
  · dsimp only
    rw [append_nil]
    refine .bind (onVolume_observes checkNamedIdentity_reads) fun _ _ => ?_
    refine (onVolume_observes validateStateAtParent_reads).imp fun _ hstate => ?_
    exact showsAt_of_shows (hfits.resolve hstate.1) hstate.2
  · dsimp only
    rw [← hmissing]
    by_cases hnone : e.original = none ∧ e.current = none
    · rw [if_pos hnone, hnone.2]
      refine (onVolume_observes observeAbsent_reads).imp fun _ habsent =>
        find_eq_none.mpr fun d hd => ?_
      rw [resolve_append] at hd
      obtain ⟨a, ha, hrest⟩ := bind_eq_some_iff.mp hd
      rcases h.route_kept hfits.way with hkept | ⟨hgone, -⟩
      · rw [hkept] at ha
        cases ha
        exact habsent d hrest
      · rw [hgone] at ha
        cases ha
    · rw [if_neg hnone]
      refine .bind (onVolume_observes checkNamedIdentity_reads) fun _ _ => ?_
      refine .bind (ownedChain_observes h) fun parent hway => ?_
      refine (onVolume_observes validateStateAtParent_reads).imp fun _ hstate => ?_
      obtain ⟨hway, hcreated⟩ := hway
      refine showsAt_of_shows ?_ hstate.2
      rcases h.route_kept hfits.way with hkept | ⟨-, r, hr, hinside⟩
      · rw [resolve_append, hkept]
        exact hway
      · -- a directory was created below the ancestor, so no removal took that away
        rcases hcreated with hnil | ⟨c, hc, hparent⟩
        · rw [hmissing] at hnil
          cases hnil
        · refine absurd hinside ?_
          rw [← hparent]
          exact h.outside r hr (.made c) (Session.mem_works_made.mpr hc) _ mem_cons_self

/-! ## The whole publication -/

/-- A publication that passed its validation. -/
structure Accepted (txn : Transaction) (v₀ : Volume) (s : Session) : Prop where
  good : Good txn v₀ s
  shown : ∀ e ∈ txn.entries, e.ShownIn s.volume.tree
  removals : ∀ plan ∈ txn.removals, ∃ r ∈ s.removed, r.plan = plan
  recoveries : ∀ r ∈ s.removed, r.recovery.namedIdentityMatches s.volume.tree = true

theorem publishDirectories_ends {plans : List DirectoryRemoval} (hset : txn.Settled v₀)
    (hplans : ∀ plan ∈ plans, plan ∈ txn.removals) (h : Good txn v₀ s) (hcreated : s.created = [])
    (hpublished : s.published = []) :
    Ends (each publishDirectory plans) s
      (fun _ s' => Good txn v₀ s' ∧ (∀ r ∈ s.removed, r ∈ s'.removed) ∧
        ∀ plan ∈ plans, ∃ r ∈ s'.removed, r.plan = plan)
      fun _ s' => Consistent v₀ s' := by
  induction plans generalizing s with
  | nil => exact .pure ⟨h, fun _ hr => hr, fun _ hplan => absurd hplan not_mem_nil⟩
  | cons plan rest ih =>
    refine .bind ((publishDirectory_ends hset (hplans plan mem_cons_self) h hcreated
      hpublished).imp ?_ fun _ _ hc => hc)
    rintro _ s₁ ⟨hgood, hcreated₁, hpublished₁, r, hremoved, hplan⟩
    refine (ih (fun p hp => hplans p (mem_cons_of_mem _ hp)) hgood hcreated₁ hpublished₁).imp ?_
      fun _ _ hc => hc
    rintro _ s₂ ⟨hgood₂, hkept, hrest⟩
    rw [hremoved] at hkept
    refine ⟨hgood₂, fun r' hr' => hkept r' (mem_cons_of_mem _ hr'), ?_⟩
    exact forall_mem_cons.mpr ⟨⟨r, hkept r mem_cons_self, hplan⟩, hrest⟩

/-- The changes of one part of the plan; the journal of removals stays as it is. -/
theorem publishChanges_ends {step : Entry × Binding → Apply Unit}
    (hstep : ∀ x, step x = pure () ∨ step x = publishChange x.1 x.2) (hs₀ : v₀.Sound)
    (hset : txn.Settled v₀) (hbound : ∀ x ∈ bound, txn.Bound v₀.tree x.1 x.2) (h : Good txn v₀ s) :
    Ends (each (fun x => do onVolume checkpoint; step x) bound) s
      (fun _ s' => Good txn v₀ s' ∧ s'.removed = s.removed) fun _ s' => Consistent v₀ s' := by
  refine Ends.keepsRemoved (.each (fun x hx s₁ h₁ => ?_) h) (.each fun x => ?_)
  · refine Ends.bind (checkpoint_reads.onVolume (fun _ v₁ hv₁ _ => ?_)
      fun _ _ hv => h₁.consistent.same hv)
    rcases hstep x with heq | heq
    · rw [heq]
      exact h₁.same hv₁
    · rw [heq]
      exact publishChange_ends hs₀ hset (hbound x hx) (h₁.same hv₁)
  · refine .bind .onVolume fun _ => ?_
    rcases hstep x with heq | heq
    · rw [heq]
      exact .pure
    · rw [heq]
      exact publishChange_keepsRemoved

/-- A planned path inside a removed directory shows nothing. -/
theorem Good.shown_inside (h : Good txn v₀ s) (hcurrent : e.current = none)
    (hfound : e.root.namedIdentityMatches v₀.tree = true) (hin : txn.directoryContains e = true)
    (hremoved : ∀ plan ∈ txn.removals, ∃ r ∈ s.removed, r.plan = plan)
    (hrecoveries : ∀ r ∈ s.removed, r.recovery.namedIdentityMatches s.volume.tree = true) :
    e.ShownIn s.volume.tree := by
  obtain ⟨plan, hplan, hcond⟩ := any_eq_true.mp hin
  rw [and_eq_true, decide_eq_true_eq] at hcond
  obtain ⟨hroot, hcontains⟩ := hcond
  obtain ⟨r, hr, rfl⟩ := hremoved plan hplan
  have hstands := h.consistent.removal_stands hr
  obtain ⟨-, names, hrelative, hbelow⟩ := h.traced.removed r hr
  have hparent : r.parent.namedIdentityMatches s.volume.tree = true := by
    have hmatch := hrecoveries r hr
    rw [hstands.shape] at hmatch
    exact (matches_child.mp hmatch).1
  have hrootWay := matches_resolve (hbelow.matches_root hparent)
  have hway := matches_resolve hparent
  rw [hbelow.fullPath] at hway
  unfold ShownIn
  rw [hcurrent]
  rcases h.consistent.route_kept (matches_resolve hfound) with hkept | ⟨hgone, -⟩
  · -- one directory has one path, so the roots have the same
    rw [← hroot] at hkept
    have hsame := resolve_unique h.consistent.sound hkept hrootWay
    refine find_none_below hway hstands.gone ?_
    unfold base
    rw [hsame, append_assoc, ← hrelative]
    simp only [append_assoc]
    refine prefix_append_right_inj _ |>.mpr ?_
    have hpre := isPrefixOf_iff_prefix.mp hcontains
    unfold relativePath at hpre
    rwa [append_assoc] at hpre
  · refine find_eq_none.mpr fun d hd => ?_
    unfold base at hd
    rw [append_assoc, resolve_append, hgone] at hd
    cases hd

theorem removals_read {removed : List PublishedRemoval} :
    Reads (each validate removed.reverse) v fun _ =>
      ∀ r ∈ removed, r.recovery.namedIdentityMatches v.tree = true :=
  (Keeps.each fun _ _ => removalValidate_reads).imp fun _ h r hr => h r (mem_reverse.mpr hr)

/-- The checks after the last change, for a publication that made every removal. -/
theorem acceptance_observes (h : Good txn v₀ s) (hall : ∀ e ∈ txn.entries, ∃ b, (e, b) ∈ bound)
    (hbound : ∀ x ∈ bound, txn.Bound v₀.tree x.1 x.2)
    (hremoved : ∀ plan ∈ txn.removals, ∃ r ∈ s.removed, r.plan = plan) :
    Observes (do
      bound |> each fun (e, binding) => do
        onVolume checkpoint
        if txn.directoryContains e then pure () else validatePostimage e binding
      onVolume (strike ⟨.commit, .inspect⟩ .provider)
      let s ← get
      ensure (txn.accepts s) .concurrentRevision
      onVolume (each validate s.removed.reverse)
      onVolume checkpoint
      ensure (txn.gate s) .sourceSelectionChanged : Apply Unit) s
      fun _ => (∀ e ∈ txn.entries, e.ShownIn s.volume.tree) ∧
        ∀ r ∈ s.removed, r.recovery.namedIdentityMatches s.volume.tree = true := by
  refine .bind (.each (I := fun x => txn.directoryContains x.1 = false →
    x.1.ShownIn s.volume.tree) fun x hx => ?_) fun _ hshown => ?_
  · refine .bind (onVolume_observes checkpoint_reads) fun _ _ => ?_
    by_cases hin : txn.directoryContains x.1 = true
    · rw [if_pos hin]
      exact .pure fun hout => absurd hin (by rw [hout]; exact false_ne_true)
    · rw [if_neg hin]
      have hfits := (hbound x hx).fits (not_eq_true _ ▸ hin)
      exact (validatePostimage_observes h.consistent hfits).imp fun _ hpost _ => hpost
  refine .bind (onVolume_observes strike_reads) fun _ _ => ?_
  refine .bind (.get (P := fun t => t.removed = s.removed) ?_) fun s₃ hremoves => ?_
  · rintro _ ⟨v₁, rfl, -⟩
    rfl
  refine .bind (.ensure (P := fun _ => True) fun _ => trivial) fun _ _ => ?_
  rw [hremoves]
  refine .bind (onVolume_observes removals_read) fun _ hmatch => ?_
  refine .bind (onVolume_observes checkpoint_reads) fun _ _ => ?_
  refine .ensure fun _ => ⟨fun e he => ?_, hmatch⟩
  obtain ⟨b, hb⟩ := hall e he
  by_cases hin : txn.directoryContains e = true
  · exact h.shown_inside ((hbound _ hb).contained hin).1 (hbound _ hb).root hin hremoved hmatch
  · exact hshown _ hb (not_eq_true _ ▸ hin)

theorem publish_ends {source cache : List (Entry × Binding)} (hs₀ : v₀.Sound)
    (hset : txn.Settled v₀) (hsource : source.map (·.1) = txn.source)
    (hcache : cache.map (·.1) = txn.cache) (hbound : ∀ x ∈ source ++ cache, txn.Bound v₀.tree x.1 x.2)
    (h : Good txn v₀ s) (hcreated : s.created = []) (hpublished : s.published = []) :
    Ends (txn.publish source cache) s (fun _ s' => Accepted txn v₀ s')
      fun _ s' => Consistent v₀ s' := by
  refine .bind ((publishDirectories_ends hset (fun _ hp => hp) h hcreated hpublished).imp ?_
    fun _ _ hc => hc)
  rintro _ s₁ ⟨hgood₁, -, hremoved₁⟩
  refine .bind ((publishChanges_ends (fun x => ?_) hs₀ hset
    (fun x hx => hbound x (mem_append_left _ hx)) hgood₁).imp ?_ fun _ _ hc => hc)
  · by_cases hin : txn.directoryContains x.1 = true
    · exact .inl (if_pos hin)
    · exact .inr (if_neg hin)
  rintro _ s₂ ⟨hgood₂, hremoved₂⟩
  rw [← hremoved₂] at hremoved₁
  refine .bind (.get ?_)
  refine .bind (validateJournalRecoveries_reads.onVolume ?_ fun _ _ hv => hgood₂.consistent.same hv)
  intro _ v₃ hv₃ _
  have hgood₃ := hgood₂.same hv₃
  refine .bind (removals_read.onVolume ?_ fun _ _ hv => hgood₃.consistent.same hv)
  intro _ v₄ hv₄ _
  have hgood₄ := hgood₃.same hv₄
  refine .bind ((publishChanges_ends (fun x => .inr rfl) hs₀ hset
    (fun x hx => hbound x (mem_append_right _ hx)) hgood₄).imp ?_ fun _ _ hc => hc)
  rintro _ s₅ ⟨hgood₅, hremoved₅⟩
  rw [← hremoved₅] at hremoved₁
  have hall : ∀ e ∈ txn.entries, ∃ b, (e, b) ∈ source ++ cache := by
    intro e he
    unfold Transaction.entries at he
    rw [← hsource, ← hcache, ← map_append] at he
    obtain ⟨x, hx, rfl⟩ := mem_map.mp he
    exact ⟨x.2, hx⟩
  refine .imp (acceptance_observes hgood₅ hall hbound hremoved₁ s₅ ⟨_, rfl, .refl⟩) ?_ ?_
  · rintro _ _ ⟨⟨v₆, rfl, hv₆⟩, hshown, hmatch⟩
    rw [← hv₆.tree] at hshown hmatch
    exact ⟨hgood₅.same hv₆, hshown, hremoved₁, hmatch⟩
  · rintro _ _ ⟨v₆, rfl, hv₆⟩
    exact hgood₅.consistent.same hv₆

end Unica.Workspace
