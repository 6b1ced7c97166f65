import Unica.Workspace.ReverseWalk

/-!
# The cleanup of recovery copies

Once a publication is accepted the displaced files and the removed directories go. The
cleanup only takes entries away, only those of recovery copies, and a copy that stays is
reported under its name.
-/

namespace Unica.Workspace

open Lib Lib.Call ChildImage List Finmap

variable {v v' v'' : Volume} {R R' : Key → Prop}

/-- Some entries in a region are gone. -/
structure Volume.Shrinks (v : Volume) (R : Key → Prop) (v' : Volume) : Prop where
  sound : v'.Sound
  calm : v'.Calm
  tree : ∀ k, v'.tree.lookup k = v.tree.lookup k ∨ v'.tree.lookup k = none ∧ R k

namespace Volume.Shrinks

theorem refl (hs : v.Sound) (hc : v.Calm) : v.Shrinks R v := ⟨hs, hc, fun _ => .inl rfl⟩

theorem imp (h : v.Shrinks R v') (hsub : ∀ k, R k → R' k) : v.Shrinks R' v' where
  __ := h
  tree := fun k => (h.tree k).imp id fun hk => ⟨hk.1, hsub k hk.2⟩

theorem trans (h : v.Shrinks R v') (h' : v'.Shrinks R v'') : v.Shrinks R v'' where
  __ := h'
  tree := by
    intro k
    rcases h'.tree k with heq | hgone
    · rw [heq]
      exact h.tree k
    · exact .inr hgone

theorem same (hs : v.Sound) (hc : v.Calm) (hr : v.Reaches v.tree v') : v.Shrinks R v' where
  sound := hs.same hr
  calm := hc.reaches hr
  tree := by
    intro k
    rw [hr.tree]
    exact .inl rfl

theorem erase {k : Key} (hs : v.Sound) (hc : v.Calm) (hr : v.Reaches (v.tree.erase k) v')
    (hk : R k) : v.Shrinks R v' where
  sound := hs.erase hr
  calm := hc.reaches hr
  tree := by
    intro k'
    rw [hr.tree]
    by_cases heq : k' = k
    · subst heq
      exact .inr ⟨lookup_erase _ _, hk⟩
    · exact .inl (lookup_erase_ne heq)

theorem none_of_none (h : v.Shrinks R v') {k : Key} (hk : v.tree.lookup k = none) :
    v'.tree.lookup k = none := by
  rcases h.tree k with heq | hgone
  · rw [heq, hk]
  · exact hgone.1

end Volume.Shrinks

/-- Whether it succeeds or fails, the call only takes entries of the region away. -/
def Cleans (m : Check Unit) (v : Volume) (R : Key → Prop) : Prop :=
  Ends m v (fun _ v' => v.Shrinks R v') fun _ v' => v.Shrinks R v'

namespace Cleans

variable {α : Type} {m : Check Unit} {P : α → Prop}

theorem throw {e : ApplyErrorKind} (hs : v.Sound) (hc : v.Calm) : Cleans (Call.throw e) v R :=
  Volume.Shrinks.refl hs hc

theorem pure (hs : v.Sound) (hc : v.Calm) : Cleans (pure ()) v R := Volume.Shrinks.refl hs hc

theorem of_shrinks (hv : v.Shrinks R v') (h : Cleans m v' R) :
    Ends m v' (fun _ v'' => v.Shrinks R v'') fun _ v'' => v.Shrinks R v'' :=
  .imp h (fun _ _ hv' => hv.trans hv') fun _ _ hv' => hv.trans hv'

theorem bind {f : Unit → Check Unit} (h : Cleans m v R)
    (hf : ∀ v', v.Shrinks R v' → Cleans (f ()) v' R) : Cleans (m >>= f) v R :=
  Ends.bind (Ends.imp h (fun _ v' hv => of_shrinks hv (hf v' hv)) fun _ _ hv => hv)

/-- A check comes first. -/
theorem after {m : Check α} {f : α → Check Unit} (hs : v.Sound) (hc : v.Calm) (h : Reads m v P)
    (hf : ∀ a v', v.Reaches v.tree v' → P a → Cleans (f a) v' R) : Cleans (m >>= f) v R := by
  refine Ends.bind (.imp (h v .refl) ?_ fun _ _ hv => .same hs hc hv)
  intro a v' ha
  exact of_shrinks (.same hs hc ha.1) (hf a v' ha.1 ha.2)

end Cleans

mutual

theorem ChildImage.cleanup_cleans {parent : Directory} {name : Name} (child : ChildImage)
    {v : Volume} {R : Key → Prop} (hs : v.Sound) (hc : v.Calm) (hin : R (parent.identity, name))
    (hinside : ∀ k : Key, k.1 ∈ child.directories → R k) : Cleans (child.cleanup parent name) v R := by
  match child with
  | .file identity bytes =>
    unfold cleanup
    refine .after hs hc inspectChild_reads fun found v₁ hv₁ hfound => ?_
    have hs₁ := hs.same hv₁
    have hc₁ := hc.reaches hv₁
    rcases found with _ | ⟨found, links, content⟩ | _
    · exact .throw hs₁ hc₁
    · refine .after hs₁ hc₁ ensure_reads fun _ v₂ hv₂ _ => ?_
      have hat : v₂.tree.lookup (parent.identity, name) = some (.file found links content) := by
        rw [hv₂.tree, hv₁.tree]
        exact hfound.symm
      have hs₂ := hs₁.same hv₂
      have hc₂ := hc₁.reaches hv₂
      exact removeForRetainedApply_ends hs₂ hc₂ hat (fun _ hv => .erase hs₂ hc₂ hv hin)
        fun _ _ hv _ => .same hs₂ hc₂ hv
    · exact .throw hs₁ hc₁
  | .directory identity children =>
    unfold cleanup
    refine .after hs hc inspectChild_reads fun found v₁ hv₁ _ => ?_
    have hs₁ := hs.same hv₁
    have hc₁ := hc.reaches hv₁
    rcases found with _ | _ | found
    · exact .throw hs₁ hc₁
    · exact .throw hs₁ hc₁
    · refine .after hs₁ hc₁ imageValidate_reads fun _ v₂ hv₂ himage => ?_
      obtain ⟨-, hidentity, -⟩ := himage
      refine .bind (cleanupChildren_cleans children (hs₁.same hv₂) (hc₁.reaches hv₂)
        fun k hk => hinside k ?_) fun v₃ hv₃ => ?_
      · rcases hk with hk | hk
        · rw [hk, hidentity]
          exact mem_cons_self
        · exact mem_cons_of_mem _ hk
      · exact removeEmptyForRetainedApply_ends hv₃.sound hv₃.calm
          (fun _ _ hv => .erase hv₃.sound hv₃.calm hv hin) fun _ _ _ hv _ _ => .same hv₃.sound hv₃.calm hv

theorem ChildImage.cleanupChildren_cleans {directory : Directory}
    (children : List (Name × ChildImage)) {v : Volume} {R : Key → Prop} (hs : v.Sound)
    (hc : v.Calm) (hinside : ∀ k : Key,
      k.1 = directory.identity ∨ k.1 ∈ allDirectories children → R k) :
    Cleans (cleanupChildren directory children) v R := by
  match children with
  | [] => exact .pure hs hc
  | (name, child) :: rest =>
    unfold cleanupChildren
    refine .bind (cleanup_cleans child hs hc (hinside _ (.inl rfl)) fun k hk =>
      hinside k (.inr (mem_append_left _ hk))) fun v₁ hv₁ => ?_
    refine cleanupChildren_cleans rest hv₁.sound hv₁.calm fun k hk => hinside k ?_
    exact hk.imp id (mem_append_right _)

end

/-! ## Recovery copies -/

/-- The entry of a displaced file under its recovery name. -/
def PublishedChange.recoveryKeys (c : PublishedChange) : List Key :=
  (c.recoveryName.map fun name => (c.parent.identity, name)).toList

/-- A removed directory: its link and all it holds. -/
def PublishedRemoval.Region (r : PublishedRemoval) (k : Key) : Prop :=
  k = r.recoveryKey ∨ k.1 ∈ r.plan.image.directories

/-- The entry is gone, or one of the diagnostics has its name. -/
def GoneOrReported (v : Volume) (diagnostics : List CleanupDiagnostic) (k : Key) : Prop :=
  v.tree.lookup k = none ∨ ∃ d ∈ diagnostics, d.artifactName = k.2

theorem finalizeChange_ends {c : PublishedChange} {t : Tree} (hs : v.Sound) (hc : v.Calm)
    (hstands : c.Stands v₀ t) (hsame : ∀ k ∈ c.recoveryKeys, v.tree.lookup k = t.lookup k) :
    Ends (finalizeChange c) v (fun found v' => v.Shrinks (· ∈ c.recoveryKeys) v' ∧
      ∀ k ∈ c.recoveryKeys, GoneOrReported v' found k) E := by
  obtain ⟨parent, path, name, recoveryName, kind, published, displaced⟩ := c
  cases recoveryName with
  | none =>
    cases displaced with
    | some _ => exact hstands.elim
    | none => exact .pure ⟨.refl hs hc, fun _ hk => absurd hk not_mem_nil⟩
  | some recoveryName =>
    cases displaced with
    | none => exact hstands.elim
    | some displaced =>
      obtain rfl : displaced.parent = parent := hstands.1.under
      obtain rfl : displaced.name = recoveryName := hstands.1.named
      obtain ⟨bytes, -, hat⟩ := hstands.1.moved
      rw [← hsame (displaced.parent.identity, displaced.name) mem_cons_self] at hat
      refine .bind (.reify (removeForRetainedApply_ends hs hc hat ?_ ?_))
      · intro v₁ hv₁
        refine .pure ⟨.erase hs hc hv₁ mem_cons_self, fun k hk => .inl ?_⟩
        rcases mem_singleton.mp hk with rfl
        rw [hv₁.tree]
        exact lookup_erase _ _
      · intro _ v₁ hv₁ _
        refine .pure ⟨.same hs hc hv₁, fun k hk => .inr ⟨_, mem_cons_self, ?_⟩⟩
        rcases mem_singleton.mp hk with rfl
        rfl

theorem finalizeRemoval_ends {r : PublishedRemoval} (hs : v.Sound) (hc : v.Calm)
    (hshape : r.recovery = .child r.parent r.recoveryName r.plan.image.identity) :
    Ends (finalizeRemoval r) v (fun found v' => v.Shrinks r.Region v' ∧
      GoneOrReported v' found r.recoveryKey) E := by
  unfold finalizeRemoval
  rw [hshape]
  have hin : r.Region (r.parent.identity, r.recoveryName) := .inl rfl
  have hreport : ∀ v', v.Shrinks r.Region v' → v.Shrinks r.Region v' ∧
      GoneOrReported v' [⟨r.plan.relative, r.recoveryName⟩] r.recoveryKey :=
    fun _ hv => ⟨hv, .inr ⟨_, mem_cons_self, rfl⟩⟩
  refine .bind (.reify (.bind (.imp (imageValidate_reads _ .refl) ?_ ?_)))
  · rintro _ v₁ ⟨hv₁, -, hidentity, -⟩
    have hs₁ := hs.same hv₁
    have hc₁ := hc.reaches hv₁
    have hchildren : Cleans (cleanupChildren (.child r.parent r.recoveryName
        r.plan.image.identity) r.plan.image.children) v₁ r.Region := by
      refine cleanupChildren_cleans _ hs₁ hc₁ fun k hk => .inr ?_
      exact mem_cons.mpr hk
    refine .bind (.imp hchildren ?_ ?_)
    · intro _ v₂ hv₂
      have hv : v.Shrinks r.Region v₂ := Volume.Shrinks.trans (.same hs hc hv₁) hv₂
      refine removeEmptyForRetainedApply_ends hv₂.sound hv₂.calm ?_ ?_
      · intro v₃ _ hv₃
        refine .pure ⟨hv.trans (.erase hv₂.sound hv₂.calm hv₃ hin), .inl ?_⟩
        rw [hv₃.tree]
        exact lookup_erase _ _
      · intro _ v₃ _ hv₃ _ _
        exact .pure (hreport v₃ (hv.trans (.same hv₂.sound hv₂.calm hv₃)))
    · intro _ v₂ hv₂
      exact .pure (hreport v₂ (Volume.Shrinks.trans (.same hs hc hv₁) hv₂))
  · intro _ v₁ hv₁
    exact .pure (hreport v₁ (.same hs hc hv₁))

/-- A loop over recovery copies, where the cleanup of one does not disturb a later one. -/
theorem collect_cleans {α : Type} {f : α → Check (List CleanupDiagnostic)} (copies : α → List Key)
    (region : α → Key → Prop) (ready : α → Volume → Prop) {xs : List α}
    (hround : ∀ x ∈ xs, ∀ v, v.Sound → v.Calm → ready x v → Ends (f x) v (fun found v' =>
      v.Shrinks (region x) v' ∧ ∀ k ∈ copies x, GoneOrReported v' found k) E)
    (hapart : xs.Pairwise fun x y => ∀ v v', v.Shrinks (region x) v' → ready y v → ready y v')
    (hs : v.Sound) (hc : v.Calm) (hready : ∀ x ∈ xs, ready x v) :
    Ends (collect f xs) v (fun found v' => v.Shrinks (fun k => ∃ x ∈ xs, region x k) v' ∧
      ∀ x ∈ xs, ∀ k ∈ copies x, GoneOrReported v' found k) E := by
  induction xs generalizing v with
  | nil => exact .pure ⟨.refl hs hc, fun _ hx => absurd hx not_mem_nil⟩
  | cons x rest ih =>
    refine .bind ((hround x mem_cons_self v hs hc (hready x mem_cons_self)).imp ?_ fun _ _ he => he)
    rintro found v₁ ⟨hv₁, hfound⟩
    obtain ⟨hfirst, hrest⟩ := pairwise_cons.mp hapart
    refine .bind ((ih (fun y hy => hround y (mem_cons_of_mem _ hy)) hrest hv₁.sound
      hv₁.calm fun y hy => hfirst y hy v v₁ hv₁ (hready y (mem_cons_of_mem _ hy))).imp ?_
      fun _ _ he => he)
    rintro more v₂ ⟨hv₂, hmore⟩
    refine .pure ⟨?_, forall_mem_cons.mpr ⟨fun k hk => ?_, fun y hy k hk => ?_⟩⟩
    · refine Volume.Shrinks.trans (hv₁.imp ?_) (hv₂.imp ?_)
      · exact fun k hk => ⟨x, mem_cons_self, hk⟩
      · exact fun k ⟨y, hy, hk⟩ => ⟨y, mem_cons_of_mem _ hy, hk⟩
    · rcases hfound k hk with hgone | ⟨d, hd, hname⟩
      · exact .inl (hv₂.none_of_none hgone)
      · exact .inr ⟨d, mem_append_left _ hd, hname⟩
    · rcases hmore y hy k hk with hgone | ⟨d, hd, hname⟩
      · exact .inl hgone
      · exact .inr ⟨d, mem_append_right _ hd, hname⟩

/-- What the cleanup of an accepted publication leaves. -/
structure Cleaned (s : Session) (diagnostics : List CleanupDiagnostic) (v : Volume) : Prop where
  shrinks : s.volume.Shrinks (fun k => (∃ c ∈ s.published, k ∈ c.recoveryKeys) ∨
    ∃ r ∈ s.removed, r.Region k) v
  changes : ∀ c ∈ s.published, ∀ k ∈ c.recoveryKeys, GoneOrReported v diagnostics k
  removals : ∀ r ∈ s.removed, GoneOrReported v diagnostics r.recoveryKey

theorem Consistent.recoveries_apart (h : Consistent v₀ s) :
    s.published.reverse.Pairwise fun c c' => c.recoveryKeys.Disjoint c'.recoveryKeys := by
  have hworks := (pairwise_append.mp h.journal.disjoint).1
  have hchanges := pairwise_map.mp hworks
  rw [pairwise_reverse]
  refine hchanges.imp fun hdisjoint k hk hk' => ?_
  exact hdisjoint (mem_cons_of_mem _ hk') (mem_cons_of_mem _ hk)

theorem finalize_ends (h : Consistent v₀ s) :
    Ends (Transaction.finalize s) s.volume (fun diagnostics v' => Cleaned s diagnostics v') E := by
  refine .bind ((collect_cleans PublishedChange.recoveryKeys (fun c k => k ∈ c.recoveryKeys)
    (fun c v => ∀ k ∈ c.recoveryKeys, v.tree.lookup k = s.volume.tree.lookup k) ?_ ?_ h.sound h.calm fun _ _ _ _ => rfl).imp ?_ fun _ _ he => he)
  · intro c hmem v hs hc hready
    exact finalizeChange_ends hs hc (h.change_stands (mem_reverse.mp hmem)) hready
  · refine h.recoveries_apart.imp fun hdisjoint v v' hv hready k hk => ?_
    rcases hv.tree k with heq | ⟨-, hin⟩
    · rw [heq]
      exact hready k hk
    · exact absurd hk (hdisjoint hin)
  rintro changes v₁ ⟨hv₁, hchanges⟩
  refine .bind ((collect_cleans (fun r => [r.recoveryKey]) PublishedRemoval.Region
    (fun _ _ => True) ?_ ?_ hv₁.sound hv₁.calm fun _ _ => trivial).imp ?_ fun _ _ he => he)
  · intro r hmem v hs hc _
    have hshape := (h.removal_stands (mem_reverse.mp hmem)).shape
    refine (finalizeRemoval_ends hs hc hshape).imp ?_ fun _ _ he => he
    rintro found v' ⟨hv', hfound⟩
    exact ⟨hv', fun k hk => mem_singleton.mp hk ▸ hfound⟩
  · exact pairwise_of_forall fun _ _ _ _ _ _ => trivial
  rintro removals v₂ ⟨hv₂, hremovals⟩
  refine .pure ⟨?_, fun c hmem k hk => ?_, fun r hmem => ?_⟩
  · refine Volume.Shrinks.trans (hv₁.imp ?_) (hv₂.imp ?_)
    · exact fun k ⟨c, hmem, hk⟩ => .inl ⟨c, mem_reverse.mp hmem, hk⟩
    · exact fun k ⟨r, hmem, hk⟩ => .inr ⟨r, mem_reverse.mp hmem, hk⟩
  · rcases hchanges c (mem_reverse.mpr hmem) k hk with hgone | ⟨d, hd, hname⟩
    · exact .inl (hv₂.none_of_none hgone)
    · exact .inr ⟨d, mem_append_left _ hd, hname⟩
  · rcases hremovals r (mem_reverse.mpr hmem) _ mem_cons_self with hgone | ⟨d, hd, hname⟩
    · exact .inl hgone
    · exact .inr ⟨d, mem_append_right _ hd, hname⟩

end Unica.Workspace
