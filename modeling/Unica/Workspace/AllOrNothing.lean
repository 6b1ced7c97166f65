import Unica.Workspace.Accepted
import Unica.Workspace.RecoveryCleanup

/-!
# Apply is all or nothing

`commit_retained_apply` either returns a report, and then every planned path shows its
planned image and every other path is as it was, up to the recovery copies the report
names; or it returns an error, and then the tree is the one before the call.
-/

namespace Unica.Workspace

open Lib Lib.Call Tree Session List Option Entry Directory Finmap

/-! ## The contract -/

def DirectoryRemoval.path (plan : DirectoryRemoval) : List Name := plan.root.fullPath ++ plan.relative

/-- The paths a transaction is about: the changed files, the missing parents made for them,
and everything in a removed directory. -/
def Transaction.Plans (txn : Transaction) (path : List Name) : Prop :=
  (∃ e ∈ txn.entries, e.original ≠ e.current ∧ (path = e.base ++ e.missing ++ [e.name] ∨
    ∃ before, before ≠ [] ∧ before <+: e.missing ∧ path = e.base ++ before)) ∨
  ∃ plan ∈ txn.removals, plan.path <+: path

/-- The plan is carried out and nothing else is changed. -/
structure Transaction.Applied (txn : Transaction) (report : Report) (before after : Tree) :
    Prop where
  planned : ∀ e ∈ txn.entries, e.ShownIn after
  removed : ∀ plan ∈ txn.removals, ∀ parents name, plan.path <+: parents ++ [name] →
    after.find parents name = none
  untouched : ∀ parents name, ¬txn.Plans (parents ++ [name]) →
    (∀ d ∈ report.cleanupDiagnostics, d.artifactName ∉ parents ++ [name]) →
    after.find parents name = before.find parents name

def Transaction.AllOrNothing (txn : Transaction) (v : Volume) : Prop :=
  match txn.commitRetainedApply v with
  | (.ok report, v') => txn.Applied report v.tree v'.tree
  | (.error _, v') => v'.tree = v.tree

/-! ## What an accepted publication changed -/

variable {txn : Transaction} {v₀ v v' : Volume} {s : Session} {t t' : Tree} {m : Name}

section Paths

variable {parents : List Name} {name : Name} {d : Nat} {node : Node}

theorem Tree.find_of_sub (hsub : ∀ k node, t'.lookup k = some node → t.lookup k = some node)
    (h : t'.find parents name = some node) : t.find parents name = some node := by
  obtain ⟨d, hway, hat⟩ := find_eq_some.mp h
  exact find_eq_some.mpr ⟨d, resolve_of_links hway fun _ _ _ _ _ _ => hsub _ _, hsub _ _ hat⟩

/-- Every name on a way leads to something. -/
theorem Tree.mem_of_resolve (h : t.resolve top parents = some d) (hm : m ∈ parents) :
    ∃ y z, t.lookup (y, m) = some (.directory z) := by
  induction parents using reverseRecOn generalizing d with
  | nil => cases hm
  | append_singleton p n ih =>
    obtain ⟨y, hway, hlink⟩ := resolve_snoc.mp h
    rcases mem_append.mp hm with hm | hm
    · exact ih hway hm
    · rw [mem_singleton.mp hm]
      exact ⟨y, d, hlink⟩

theorem Tree.mem_of_find (h : t.find parents name = some node)
    (hm : m ∈ parents ++ [name]) : ∃ y, (t.lookup (y, m)).isSome = true := by
  obtain ⟨d, hway, hat⟩ := find_eq_some.mp h
  rcases mem_append.mp hm with hm | hm
  · obtain ⟨y, z, hlink⟩ := mem_of_resolve hway hm
    exact ⟨y, by rw [hlink]; rfl⟩
  · rw [mem_singleton.mp hm]
    exact ⟨d, by rw [hat]; rfl⟩

theorem Volume.Sound.settled (hs : v.Sound) {y : Nat}
    (h : (v.tree.lookup (y, m)).isSome = true) : m.settled v.nextSerial = true := by
  cases m with
  | plain _ => rfl
  | artifact kind serial => exact decide_eq_true (hs.names y kind serial h)

/-- Recovery names are drawn during the call. -/
theorem PublishedChange.Stands.recovery_drawn {c : PublishedChange} (h : c.Stands v₀ t) {k : Key}
    (hk : k ∈ c.recoveryKeys) : k.2.settled v₀.nextSerial = false := by
  obtain ⟨recoveryName, hname, rfl⟩ := mem_map.mp (mem_toList.mp hk)
  unfold Stands at h
  rw [mem_def.mp hname] at h
  split at h
  · contradiction
  · rename_i heq _
    cases heq
    exact h.1.drawn
  · exact h.elim

/-- A link the journals have under a name of the plan leads to a new directory. -/
theorem Consistent.new_link (h : Consistent v₀ s) {w : Work} (hw : w ∈ s.works) {k : Key}
    (hk : k ∈ w.keys) (hlink : s.volume.tree.lookup k = some (.directory d))
    (hname : k.2.settled v₀.nextSerial = true) : v₀.nextIdentity ≤ d := by
  cases w with
  | change c =>
    have hstands := h.change_stands (mem_works_change.mp hw)
    rcases mem_cons.mp hk with rfl | hk
    · exact absurd hlink (hstands.target_not_directory d)
    · rw [hstands.recovery_drawn hk] at hname
      cases hname
  | made c =>
    have hstands := h.made_stands (mem_works_made.mp hw)
    rw [mem_singleton.mp hk, hstands.found] at hlink
    cases hlink
    exact hstands.identity
  | removed r =>
    have hstands := h.removal_stands (mem_works_removed.mp hw)
    rcases mem_cons.mp hk with rfl | hk
    · rw [hstands.gone] at hlink
      cases hlink
    · rw [mem_singleton.mp hk, show r.recoveryKey.2 = r.recoveryName from rfl,
        hstands.drawn] at hname
      cases hname

/-- A way through names of the plan is from before the call, or ends in a new directory. -/
theorem Consistent.way_before (hs₀ : v₀.Sound) (h : Consistent v₀ s)
    (hway : s.volume.tree.resolve top parents = some d)
    (hnames : ∀ m ∈ parents, m.settled v₀.nextSerial = true) :
    v₀.tree.resolve top parents = some d ∨ v₀.nextIdentity ≤ d := by
  induction parents using reverseRecOn generalizing d with
  | nil => exact .inl hway
  | append_singleton p m ih =>
    obtain ⟨x, hx, hlink⟩ := resolve_snoc.mp hway
    have hm := hnames m (mem_append_right _ mem_cons_self)
    by_cases hk : ∃ w ∈ s.works, (x, m) ∈ w.keys
    · obtain ⟨w, hw, hk⟩ := hk
      exact .inr (h.new_link hw hk hlink hm)
    · rw [h.journal.frame _ fun w hw hmem => hk ⟨w, hw, hmem⟩] at hlink
      rcases ih hx fun m' hm' => hnames m' (mem_append_left _ hm') with hkept | hnew
      · exact .inl (resolve_snoc.mpr ⟨x, hkept, hlink⟩)
      · have hold := hs₀.parents (x, m) (by rw [hlink]; rfl)
        omega

namespace Accepted

/-- The parent of a removed directory is where its plan says. -/
theorem removal_way (h : Accepted txn v₀ s) {r : PublishedRemoval} (hr : r ∈ s.removed) :
    ∃ names, names ++ [r.name] = r.plan.path ∧
      s.volume.tree.resolve top names = some r.parent.identity := by
  have hstands := h.good.consistent.removal_stands hr
  obtain ⟨-, names, hrelative, hbelow⟩ := h.good.traced.removed r hr
  refine ⟨r.plan.root.fullPath ++ names, ?_, ?_⟩
  · unfold DirectoryRemoval.path
    rw [hrelative, append_assoc]
  · have hmatch := h.recoveries r hr
    rw [hstands.shape] at hmatch
    rw [← hbelow.fullPath]
    exact matches_resolve (matches_child.mp hmatch).1

/-- An entry of the journals under a name of the plan is at a planned path. -/
theorem planned_path (h : Accepted txn v₀ s) (hway : s.volume.tree.resolve top parents = some d)
    (hname : name.settled v₀.nextSerial = true) {w : Work} (hw : w ∈ s.works)
    (hk : (d, name) ∈ w.keys) : txn.Plans (parents ++ [name]) := by
  have hc := h.good.consistent
  cases w with
  | change c =>
    rcases mem_cons.mp hk with heq | hk
    · cases heq
      obtain ⟨e, he, hchanged, hsame, hbase⟩ :=
        h.good.traced.changes c (mem_works_change.mp hw)
      have hparents := resolve_unique hc.sound hway hbase
      exact .inl ⟨e, he, hchanged, .inl (by rw [hparents, hsame])⟩
    · have hdrawn := (hc.change_stands (mem_works_change.mp hw)).recovery_drawn hk
      rw [hname] at hdrawn
      cases hdrawn
  | made c =>
    cases mem_singleton.mp hk
    obtain ⟨e, he, hchanged, before, hpre, hbase⟩ :=
      h.good.traced.made c (mem_works_made.mp hw)
    have hparents := resolve_unique hc.sound hway hbase
    refine .inl ⟨e, he, hchanged, .inr ⟨before ++ [c.name], ?_, hpre, ?_⟩⟩
    · exact append_ne_nil_of_right_ne_nil _ (cons_ne_nil _ _)
    · rw [hparents, append_assoc]
  | removed r =>
    have hr := mem_works_removed.mp hw
    have hstands := hc.removal_stands hr
    rcases mem_cons.mp hk with heq | hk
    · cases heq
      obtain ⟨names, hpath, hparent⟩ := h.removal_way hr
      have hparents := resolve_unique hc.sound hway hparent
      refine .inr ⟨r.plan, (h.good.traced.removed r hr).1, ?_⟩
      rw [hparents, hpath]
    · cases mem_singleton.mp hk
      rw [hstands.drawn] at hname
      cases hname

/-- Before the call the only way into a removed directory was the path of its removal. -/
theorem path_of_inside (hs₀ : v₀.Sound) (hset : txn.Settled v₀) (h : Accepted txn v₀ s)
    {r : PublishedRemoval} (hr : r ∈ s.removed) (hway : v₀.tree.resolve top parents = some d)
    (hinside : d ∈ r.plan.image.directories) : r.plan.path <+: parents := by
  have hc := h.good.consistent
  have hstands := hc.removal_stands hr
  obtain ⟨names, hpath, hparent⟩ := h.removal_way hr
  have hplan := (h.good.traced.removed r hr).1
  have hsettled : ∀ m ∈ names, m.settled v₀.nextSerial = true := by
    intro m hm
    refine hset.removals r.plan hplan m ?_
    change m ∈ r.plan.path
    rw [← hpath]
    exact mem_append_left _ hm
  have hold : r.parent.identity < v₀.nextIdentity :=
    hs₀.parents r.target (by rw [hstands.before]; rfl)
  have hbefore : v₀.tree.resolve top names = some r.parent.identity := by
    rcases hc.way_before hs₀ hparent hsettled with hbefore | hnew
    · exact hbefore
    · omega
  by_contra havoid
  refine DirectoryImage.not_inside hs₀ (hc.images r hr) hstands.before hway ?_ hinside
  intro p' hpre hp'
  rw [resolve_unique hs₀ hp' hbefore] at hpre
  exact havoid (hpath ▸ hpre)

/-- A path from before the call that is not planned is there still. -/
theorem find_kept (hs₀ : v₀.Sound) (hset : txn.Settled v₀) (h : Accepted txn v₀ s)
    (hbefore : v₀.tree.find parents name = some node) (hother : ¬txn.Plans (parents ++ [name])) :
    s.volume.tree.find parents name = some node := by
  have hc := h.good.consistent
  have hsettled : ∀ m ∈ parents ++ [name], m.settled v₀.nextSerial = true := by
    intro m hm
    obtain ⟨y, hy⟩ := mem_of_find hbefore hm
    exact hs₀.settled hy
  obtain ⟨d, hway, hat⟩ := find_eq_some.mp hbefore
  have hkept : s.volume.tree.resolve top parents = some d := by
    rcases hc.route_kept hway with hkept | ⟨-, r, hr, hinside⟩
    · exact hkept
    · refine absurd (.inr ⟨r.plan, (h.good.traced.removed r hr).1, ?_⟩) hother
      exact (h.path_of_inside hs₀ hset hr hway hinside).trans (prefix_append _ _)
  refine find_eq_some.mpr ⟨d, hkept, ?_⟩
  rw [hc.journal.frame (d, name) fun w hw hk => ?_]
  · exact hat
  · exact hother (h.planned_path hkept (hsettled name (mem_append_right _ mem_cons_self)) hw hk)

/-- A path through names of the plan that is not planned was there before the call. -/
theorem find_before (hs₀ : v₀.Sound) (h : Accepted txn v₀ s)
    (hnow : s.volume.tree.find parents name = some node)
    (hsettled : ∀ m ∈ parents ++ [name], m.settled v₀.nextSerial = true)
    (hother : ¬txn.Plans (parents ++ [name])) : v₀.tree.find parents name = some node := by
  have hc := h.good.consistent
  obtain ⟨d, hway, hat⟩ := find_eq_some.mp hnow
  rw [hc.journal.frame (d, name) fun w hw hk => ?_] at hat
  · refine find_eq_some.mpr ⟨d, ?_, hat⟩
    rcases hc.way_before hs₀ hway fun m hm => hsettled m (mem_append_left _ hm) with
      hbefore | hnew
    · exact hbefore
    · have hold := hs₀.parents (d, name) (by rw [hat]; rfl)
      omega
  · exact hother (h.planned_path hway (hsettled name (mem_append_right _ mem_cons_self)) hw hk)

end Accepted

end Paths

/-! ## What the cleanup leaves -/

section Cleanup

variable {diagnostics : List CleanupDiagnostic} {parents : List Name} {name : Name} {node : Node}

section

variable (h : Cleaned s diagnostics v)
include h

theorem Cleaned.sub : ∀ k node, v.tree.lookup k = some node → s.volume.tree.lookup k = some node := by
  intro k node hk
  rcases h.shrinks.tree k with heq | ⟨hgone, -⟩
  · rw [← heq]
    exact hk
  · rw [hgone] at hk
    cases hk

theorem Cleaned.find_none (hnone : s.volume.tree.find parents name = none) : v.tree.find parents name = none := by
  by_contra hsome
  obtain ⟨node, hnode⟩ := ne_none_iff_exists'.mp hsome
  rw [find_of_sub h.sub hnode] at hnone
  cases hnone

/-- The cleanup takes nothing from a path through names of the plan. -/
theorem Cleaned.find_kept (hc : Consistent v₀ s) (hnow : s.volume.tree.find parents name = some node)
    (hsettled : ∀ m ∈ parents ++ [name], m.settled v₀.nextSerial = true) :
    v.tree.find parents name = some node := by
  -- an entry in a directory such a path leads to, under such a name, is no recovery copy
  have hkeep : ∀ p m y, (∀ m' ∈ p ++ [m], m'.settled v₀.nextSerial = true) →
      s.volume.tree.resolve top p = some y →
      v.tree.lookup (y, m) = s.volume.tree.lookup (y, m) := by
    intro p m y hnames hy
    have hm := hnames m (mem_append_right _ mem_cons_self)
    rcases h.shrinks.tree (y, m) with heq | ⟨-, hcopy⟩
    · exact heq
    · rcases hcopy with ⟨c, hmem, hk⟩ | ⟨r, hr, hlink | hinside⟩
      · have hdrawn := (hc.change_stands hmem).recovery_drawn hk
        rw [hm] at hdrawn
        cases hdrawn
      · have hdrawn := (hc.removal_stands hr).drawn
        rw [show m = r.recoveryName from congrArg Prod.snd hlink, hdrawn] at hm
        cases hm
      · exact absurd hinside (hc.way_outside hy (fun m' hm' => hnames m'
          (mem_append_left _ hm')) hr)
  obtain ⟨d, hway, hat⟩ := find_eq_some.mp hnow
  refine find_eq_some.mpr ⟨d, ?_, ?_⟩
  · refine resolve_of_links hway fun p' m y z hpre hy hlink => ?_
    rw [hkeep p' m y (fun m' hm' => ?_) hy]
    · exact hlink
    · exact hsettled m' (mem_append_left _ (hpre.subset hm'))
  · rw [hkeep parents name d hsettled hway]
    exact hat

/-- What is left under a drawn name is reported. -/
theorem Cleaned.settled_or_reported (hs₀ : v₀.Sound) (hset : txn.Settled v₀) (hgood : Good txn v₀ s)
    {y : Nat} (hat : (v.tree.lookup (y, m)).isSome = true) :
    m.settled v₀.nextSerial = true ∨ ∃ d ∈ diagnostics, d.artifactName = m := by
  obtain ⟨node, hnode⟩ := isSome_iff_exists.mp hat
  have hnow := h.sub _ _ hnode
  have hreported : GoneOrReported v diagnostics (y, m) → ∃ d ∈ diagnostics, d.artifactName = m := by
    rintro (hgone | hreported)
    · rw [hgone] at hnode
      cases hnode
    · exact hreported
  by_cases hk : ∃ w ∈ s.works, (y, m) ∈ w.keys
  · obtain ⟨w, hw, hk⟩ := hk
    cases w with
    | change c =>
      have hmem := mem_works_change.mp hw
      rcases mem_cons.mp hk with heq | hk
      · obtain ⟨e, he, -, hname, -⟩ := hgood.traced.changes c hmem
        cases heq
        exact .inl (hname ▸ name_settled hset he)
      · exact .inr (hreported (h.changes c hmem _ hk))
    | made c =>
      cases mem_singleton.mp hk
      obtain ⟨e, he, -, before, hpre, -⟩ :=
        hgood.traced.made c (mem_works_made.mp hw)
      refine .inl (missing_settled hset he (hpre.subset ?_))
      exact mem_append_right _ mem_cons_self
    | removed r =>
      have hr := mem_works_removed.mp hw
      rcases mem_cons.mp hk with heq | hk
      · rw [heq, (hgood.consistent.removal_stands hr).gone] at hnow
        cases hnow
      · rw [mem_singleton.mp hk] at hreported
        exact .inr (hreported (h.removals r hr))
  · rw [hgood.consistent.journal.frame _ fun w hw hmem => hk ⟨w, hw, hmem⟩] at hnow
    exact .inl (hs₀.settled (by rw [hnow]; rfl))

end

/-- An accepted publication with its recovery copies cleaned up is the plan carried out. -/
theorem Accepted.applied {report : Report} (hs₀ : v₀.Sound) (hset : txn.Settled v₀)
    (h : Accepted txn v₀ s) (hcleaned : Cleaned s report.cleanupDiagnostics v) :
    txn.Applied report v₀.tree v.tree := by
  have hc := h.good.consistent
  refine ⟨fun e he => ?_, fun plan hplan parents name hpre => ?_, fun parents name hother hquiet => ?_⟩
  · have hsettled : ∀ m ∈ e.base ++ e.missing ++ [e.name], m.settled v₀.nextSerial = true := by
      intro m hm
      refine hset.entries e he m ?_
      unfold relativePath
      unfold base at hm
      simp only [append_assoc] at hm ⊢
      exact hm
    have hshown := h.shown e he
    unfold ShownIn at hshown ⊢
    rcases hcurrent : e.current with _ | bytes
    · rw [hcurrent] at hshown
      exact hcleaned.find_none hshown
    · rw [hcurrent] at hshown
      obtain ⟨identity, hfile⟩ := hshown
      exact ⟨identity, hcleaned.find_kept hc hfile hsettled⟩
  · obtain ⟨r, hr, rfl⟩ := h.removals plan hplan
    obtain ⟨names, hpath, hparent⟩ := h.removal_way hr
    exact hcleaned.find_none (find_none_below hparent (hc.removal_stands hr).gone (hpath ▸ hpre))
  · refine ext fun node => ⟨fun hafter => ?_, fun hbefore => ?_⟩
    · refine h.find_before hs₀ (find_of_sub hcleaned.sub hafter) (fun m hm => ?_) hother
      obtain ⟨y, hy⟩ := mem_of_find hafter hm
      rcases hcleaned.settled_or_reported hs₀ hset h.good hy with hsettled | ⟨d, hd, rfl⟩
      · exact hsettled
      · exact absurd hm (hquiet d hd)
    · have hnow := h.find_kept hs₀ hset hbefore hother
      refine hcleaned.find_kept hc hnow fun m hm => ?_
      obtain ⟨y, hy⟩ := mem_of_find hbefore hm
      exact hs₀.settled hy

end Cleanup

/-! ## The commit -/

theorem commit_ends (hs : v.Sound) (hc : v.Calm) (hset : txn.Settled v) :
    Ends txn.commitRetainedApply v (fun report v' => txn.Applied report v.tree v'.tree)
      fun _ v' => v'.tree = v.tree := by
  refine .bind (.imp (validateAndBind_reads _ .refl) ?_ fun _ _ hv => hv.tree)
  rintro ⟨source, cache⟩ v₁ ⟨hv₁, hsource, hcache, hbound⟩
  refine .bind (.imp (checkpoint_reads _ .refl) ?_ fun _ v₂ hv₂ => hv₂.tree.trans hv₁.tree)
  rintro _ v₂ ⟨hv₂, -⟩
  have hv := hv₁.stay hv₂
  have hgood : Good txn v ⟨v₂, [], [], []⟩ := by
    refine ⟨.start (hs.same hv) (hc.reaches hv) hv.identity hv.serial hv.tree, ?_⟩
    exact ⟨fun _ h => absurd h not_mem_nil, fun _ h => absurd h not_mem_nil,
      fun _ h => absurd h not_mem_nil⟩
  have hpublish := publish_ends hs hset hsource hcache hbound hgood rfl rfl
  refine .bind (.get ?_)
  rcases hrun : txn.publish source cache ⟨v₂, [], [], []⟩ with ⟨primary | _, s⟩
  · dsimp only
    have hcons := hpublish.error hrun
    refine .bind (.modify (.bind ((rollback_ends hs hcons).imp ?_ fun _ _ h => h)))
    intro failures v₃ hv₃
    by_cases hfailures : failures = []
    · rw [if_pos hfailures]
      exact .throw hv₃
    · rw [if_neg hfailures]
      exact .throw hv₃
  · dsimp only
    have haccepted := hpublish.ok hrun
    refine .bind (.modify (.bind ((finalize_ends haccepted.good.consistent).imp ?_ fun _ _ h => h)))
    intro diagnostics v₃ hcleaned
    exact .pure (haccepted.applied hs hset hcleaned)

section Sample

/-- A file `a` with the byte 1 below the root, and the call that is to fail. -/
def sampleVolume (fault : Option (Site × Nat)) : Volume :=
  ⟨Finmap.singleton (0, .plain "a") (.file 1 1 [1]), 2, 0, fault⟩

/-- The file gets the byte 2. -/
def sampleUpdate : Transaction where
  root := .root [] 0
  source := [⟨.root [] 0, [], [], .plain "a", some [1], some [2], some 1, rfl⟩]
  cache := []
  removals := []
  admits := fun _ => true
  accepts := fun _ => true
  gate := fun _ => true

theorem sampleVolume_sound (fault : Option (Site × Nat)) : (sampleVolume fault).Sound := by
  have hlookup : ∀ k node, (sampleVolume fault).tree.lookup k = some node →
      k = (0, .plain "a") ∧ node = .file 1 1 [1] := by
    intro k node hk
    obtain rfl : k = (0, .plain "a") :=
      mem_singleton _ _ _ |>.mp (mem_of_lookup_eq_some hk)
    cases hk
    exact ⟨rfl, rfl⟩
  refine ⟨fun k hk => ?_, fun k node hk => ?_, fun d kind serial hk => ?_, fun k k' i hk => ?_,
    fun k hk => ?_, Nat.two_pos⟩
  · obtain ⟨node, hk⟩ := isSome_iff_exists.mp hk
    rw [(hlookup k node hk).1]
    exact Nat.two_pos
  · rw [(hlookup k node hk).2]
    exact Nat.one_lt_two
  · obtain ⟨node, hk⟩ := isSome_iff_exists.mp hk
    have hkey := (hlookup _ node hk).1
    cases hkey
  · have hnode := (hlookup k _ hk).2
    cases hnode
  · have hnode := (hlookup k _ hk).2
    cases hnode

theorem sampleUpdate_settled (fault : Option (Site × Nat)) : sampleUpdate.Settled (sampleVolume fault) := by
  refine ⟨fun e he name hname => ?_, fun _ h => absurd h not_mem_nil,
    fun _ h => absurd h not_mem_nil⟩
  rcases mem_singleton.mp he with rfl
  rcases mem_singleton.mp hname with rfl
  rfl

end Sample

end Unica.Workspace
