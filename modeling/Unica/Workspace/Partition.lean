import Unica.Workspace.RetainedApply

/-!
# Partition of a directory removal

`DirectoryRemoval::partition`: the parts of a removed directory that can still go when some
paths below it survive.
-/

namespace Unica.Workspace

namespace DirectoryRemoval

variable {plan d x y : DirectoryRemoval} {surviving : List (List Name)}

/-- The plans of the directories directly inside the plan's own. -/
def nested (plan : DirectoryRemoval) : List DirectoryRemoval :=
  plan.image.children.filterMap fun
    | (name, .directory identity children) =>
        some ⟨plan.root, plan.route ++ [(name, plan.image.identity)], ⟨identity, children⟩⟩
    | (_, .file ..) => none

/-- A directory of the image of another, with the route and the image it has there. -/
def Inside (plan d : DirectoryRemoval) : Prop :=
  ∃ name, (name, ChildImage.directory d.image.identity d.image.children) ∈ plan.image.children ∧
    d.root = plan.root ∧ d.route = plan.route ++ [(name, plan.image.identity)]

theorem mem_nested : d ∈ plan.nested ↔ plan.Inside d := by
  obtain ⟨root, route, ⟨identity, children⟩⟩ := d
  simp only [nested, List.mem_filterMap]
  constructor
  · rintro ⟨⟨name, child⟩, hmem, hsome⟩
    cases child with
    | directory =>
      cases hsome
      exact ⟨name, hmem, rfl, rfl⟩
    | file => cases hsome
  · rintro ⟨name, hmem, rfl, rfl⟩
    exact ⟨_, hmem, rfl⟩

theorem nested_smaller (h : d ∈ plan.nested) : sizeOf d.image < sizeOf plan.image := by
  obtain ⟨name, hmem, -⟩ := mem_nested.mp h
  have hsize := List.sizeOf_lt_of_mem hmem
  obtain ⟨root, route, ⟨identity, children⟩⟩ := d
  obtain ⟨root, route, ⟨identity, children⟩⟩ := plan
  simp at hsize ⊢
  omega

/-- `DirectoryRemoval::partition` -/
def partition (surviving : List (List Name)) (plan : DirectoryRemoval) : List DirectoryRemoval :=
  if surviving.any plan.contains then
    plan.nested.attach.flatMap fun inner => partition surviving inner.1
  else [plan]
termination_by sizeOf plan.image
decreasing_by exact nested_smaller inner.2

theorem partition_eq : plan.partition surviving =
    if surviving.any plan.contains then plan.nested.flatMap (partition surviving) else [plan] := by
  rw [partition]
  simp

/-- A directory of the plan's image at any depth, the plan's own included. -/
abbrev Within : DirectoryRemoval → DirectoryRemoval → Prop := Relation.ReflTransGen Inside

/-- No surviving path is in the directory. -/
def Clear (surviving : List (List Name)) (d : DirectoryRemoval) : Prop :=
  ∀ path ∈ surviving, ¬ d.relative <+: path

theorem clear_iff : d.Clear surviving ↔ ¬ surviving.any d.contains := by
  simp [Clear, contains]

theorem Inside.relative (h : plan.Inside d) : ∃ name, d.relative = plan.relative ++ [name] := by
  obtain ⟨name, -, -, hroute⟩ := h
  exact ⟨name, by simp [DirectoryRemoval.relative, hroute]⟩

theorem Within.relative (h : plan.Within d) : plan.relative <+: d.relative := by
  induction h with
  | refl => exact List.prefix_rfl
  | tail _ hinside ih =>
    obtain ⟨name, hname⟩ := hinside.relative
    rw [hname]
    exact ih.trans (List.prefix_append _ _)

theorem mem_partition (h : d ∈ plan.partition surviving) : plan.Within d ∧ d.Clear surviving := by
  induction plan using partition.induct surviving with
  | case1 plan hany ih =>
    rw [partition_eq, if_pos hany, List.mem_flatMap] at h
    obtain ⟨inner, hinner, hd⟩ := h
    obtain ⟨hwithin, hclear⟩ := ih ⟨inner, hinner⟩ hd
    exact ⟨.head (mem_nested.mp hinner) hwithin, hclear⟩
  | case2 plan hnone =>
    rw [partition_eq, if_neg hnone, List.mem_singleton] at h
    subst h
    exact ⟨.refl, clear_iff.mpr hnone⟩

theorem partition_covers (h : plan.Within d) (hclear : d.Clear surviving) :
    ∃ part ∈ plan.partition surviving, part.relative <+: d.relative := by
  induction plan using partition.induct surviving with
  | case1 plan hany ih =>
    rcases h.cases_head with rfl | ⟨inner, hinner, hwithin⟩
    · exact absurd hany (clear_iff.mp hclear)
    · have hmem := mem_nested.mpr hinner
      obtain ⟨part, hpart, hrelative⟩ := ih ⟨inner, hmem⟩ hwithin
      refine ⟨part, ?_, hrelative⟩
      rw [partition_eq, if_pos hany, List.mem_flatMap]
      exact ⟨inner, hmem, hpart⟩
  | case2 plan hnone =>
    rw [partition_eq, if_neg hnone]
    exact ⟨plan, List.mem_singleton_self plan, Within.relative h⟩

/-- The children of every directory of the image are a map by name. -/
def Keyed (plan : DirectoryRemoval) : Prop :=
  ∀ d, plan.Within d → (d.image.children.map (·.1)).Nodup

theorem Keyed.inside (hkeyed : plan.Keyed) (h : plan.Inside d) : d.Keyed :=
  fun inner hinner => hkeyed inner (.head h hinner)

/-- Neither directory is inside the other. -/
def Apart (a b : DirectoryRemoval) : Prop :=
  ¬ a.relative <+: b.relative ∧ ¬ b.relative <+: a.relative

theorem Keyed.apart {a b : DirectoryRemoval} (hkeyed : plan.Keyed) (ha : plan.Inside a)
    (hb : plan.Inside b) (hne : a ≠ b) (hx : a.Within x) (hy : b.Within y) : Apart x y := by
  have hcommon {path : List Name} (hpa : a.relative <+: path) (hpb : b.relative <+: path) :
      False := by
    obtain ⟨root, route, image⟩ := a
    obtain ⟨root', route', image'⟩ := b
    obtain ⟨name, hmem, rfl, rfl⟩ := ha
    obtain ⟨name', hmem', rfl, rfl⟩ := hb
    have hlength := (List.prefix_of_prefix_length_le hpa hpb (by simp [relative])).eq_of_length
      (by simp [relative])
    obtain rfl : name = name' := by simpa [relative] using hlength
    have hsame := List.inj_on_of_nodup_map (hkeyed plan .refl) hmem hmem' rfl
    exact hne (by cases image; cases image'; simp_all)
  exact ⟨fun h => hcommon ((Within.relative hx).trans h) (Within.relative hy),
    fun h => hcommon (Within.relative hx) ((Within.relative hy).trans h)⟩

theorem Keyed.nodup_nested (hkeyed : plan.Keyed) : plan.nested.Nodup := by
  apply (List.Nodup.of_map _ (hkeyed plan .refl)).filterMap
  rintro ⟨name, child⟩ ⟨name', child'⟩ inner h h'
  cases child <;> cases child' <;> cases h <;> simp_all

theorem partition_apart (hkeyed : plan.Keyed) : (plan.partition surviving).Pairwise Apart := by
  induction plan using partition.induct surviving with
  | case1 plan hany ih =>
    rw [partition_eq, if_pos hany]
    apply List.pairwise_flatMap.mpr
    constructor
    · intro inner hinner
      exact ih ⟨inner, hinner⟩ (hkeyed.inside (mem_nested.mp hinner))
    · apply hkeyed.nodup_nested.pairwise_of_forall_ne
      intro a ha b hb hne x hx y hy
      exact hkeyed.apart (mem_nested.mp ha) (mem_nested.mp hb) hne (mem_partition hx).1
        (mem_partition hy).1
  | case2 plan hnone =>
    rw [partition_eq, if_neg hnone]
    exact List.pairwise_singleton _ plan

theorem Keyed.eq_of_relative (hkeyed : plan.Keyed) (hx : plan.Within x) (hy : plan.Within y)
    (h : x.relative = y.relative) : x = y := by
  have hlonger {p c z : DirectoryRemoval} (hc : p.Inside c) (hz : c.Within z) :
      p.relative ≠ z.relative := by
    obtain ⟨name, hname⟩ := hc.relative
    have hle := (Within.relative hz).length_le
    intro heq
    simp [hname, ← heq] at hle
  induction hx using Relation.ReflTransGen.head_induction_on with
  | refl =>
    rcases hy.cases_head with heq | ⟨c, hc, hcy⟩
    · exact heq
    · exact absurd h (hlonger hc hcy)
  | @head p c hc hcx ih =>
    rcases hy.cases_head with rfl | ⟨c', hc', hcy⟩
    · exact absurd h.symm (hlonger hc hcx)
    · by_cases hsame : c = c'
      · subst hsame
        exact ih (hkeyed.inside hc) hcy
      · exact absurd (h ▸ List.prefix_rfl) (hkeyed.apart hc hc' hsame hcx hcy).1

end DirectoryRemoval

/-- A directory removal as `capture` records it. -/
structure CapturedRemoval extends DirectoryRemoval where
  keyed : toDirectoryRemoval.Keyed

open DirectoryRemoval

/-- The parts are exactly the maximal directories of the image without a surviving path,
they are apart from each other, and whatever else is in the image is above such a path. -/
theorem partition_exact (plan : CapturedRemoval) (surviving : List (List Name)) :
    (∀ part, part ∈ plan.partition surviving ↔
      plan.Within part ∧ part.Clear surviving ∧ ∀ d, plan.Within d → d.Clear surviving →
        d.relative <+: part.relative → d = part) ∧
    (plan.partition surviving).Pairwise Apart ∧
    ∀ d, plan.Within d → ((∃ part ∈ plan.partition surviving, part.relative <+: d.relative) ↔
      ¬ ∃ path ∈ surviving, d.relative <+: path) := by
  have hapart : (plan.partition surviving).Pairwise Apart := partition_apart plan.keyed
  refine ⟨?_, hapart, ?_⟩
  · intro part
    constructor
    · intro hpart
      obtain ⟨hwithin, hclear⟩ := mem_partition hpart
      refine ⟨hwithin, hclear, ?_⟩
      intro d hd hdclear hrelative
      obtain ⟨cover, hcover, habove⟩ := partition_covers hd hdclear
      have hsame : cover = part := by
        by_contra hne
        have : Std.Symm Apart := ⟨fun _ _ h => ⟨h.2, h.1⟩⟩
        exact (hapart.forall hcover hpart hne).1 (habove.trans hrelative)
      subst hsame
      exact plan.keyed.eq_of_relative hd hwithin
        (hrelative.eq_of_length_le habove.length_le)
    · rintro ⟨hwithin, hclear, hmaximal⟩
      obtain ⟨cover, hcover, habove⟩ := partition_covers hwithin hclear
      obtain ⟨hcwithin, hcclear⟩ := mem_partition hcover
      rw [← hmaximal cover hcwithin hcclear habove]
      exact hcover
  · intro d hd
    constructor
    · rintro ⟨part, hpart, habove⟩ ⟨path, hpath, hbelow⟩
      exact (mem_partition hpart).2 path hpath (habove.trans hbelow)
    · intro hclear
      apply partition_covers hd
      intro path hpath hbelow
      exact hclear ⟨path, hpath, hbelow⟩

end Unica.Workspace
