import Mathlib.Data.Finset.Sort
import Unica.Workspace.Volume

/-!
# Planned path identities

`find_overlapping_planned_identity`: one ordered-map lookup for each ancestor of a target
and one probe for its descendants, and the plans that are guarded by it.
-/

namespace Unica.Workspace

open List Option Finset

/-- `std::path::Component` of a Unix path, in the order of its variants. -/
inductive Component where
  | rootDir
  | curDir
  | parentDir
  | normal (name : Bytes)
  deriving DecidableEq

namespace Component

def key : Component → List Nat
  | rootDir => [0]
  | curDir => [1]
  | parentDir => [2]
  | normal name => 3 :: name.map UInt8.toNat

theorem key_injective : Function.Injective key := by
  intro a b h
  cases a <;> cases b <;> simp only [key, cons.injEq] at h
  all_goals first | rfl | omega | skip
  rw [map_injective_iff.mpr (fun _ _ => UInt8.toNat_inj.mp) h.2]

instance : LinearOrder Component := LinearOrder.lift' key key_injective

end Component

/-- A path as the sequence of its components, which is how paths are compared. -/
abbrev Path := List Component

/-- `Path::ancestors`: the path and what is left of it as its last components are dropped.
A root has no parent, so that the empty path is no ancestor of an absolute one. -/
def Path.ancestors (path : Path) : List Path :=
  path.inits.reverse.filter fun ancestor => ancestor ≠ [] ∨ path.head? ≠ some .rootDir

/-- Two paths overlap when one is an ancestor of the other or they are equal. -/
def Path.Overlaps (a b : Path) : Prop := a <+: b ∨ b <+: a

/-- Everything between a list and a continuation of it continues it. -/
theorem continues_of_between {α : Type*} [LinearOrder α] {t k rest : List α} (hl : t ≤ k)
    (hr : k ≤ t ++ rest) : t <+: k := by
  rw [← not_lt] at hl hr
  induction t generalizing k with
  | nil => exact nil_prefix
  | cons a t ih =>
    cases k with
    | nil => exact absurd (nil_lt_cons a t) hl
    | cons b k =>
      rw [cons_append] at hr
      rw [cons_lt_cons_iff, not_or] at hl hr
      obtain rfl : a = b := le_antisymm (not_lt.mp hl.1) (not_lt.mp hr.1)
      have ht : t <+: k := ih (fun h => hl.2 ⟨rfl, h⟩) (fun h => hr.2 ⟨rfl, h⟩)
      exact cons_prefix_cons.mpr ⟨rfl, ht⟩

/-- A path as `normalize_path_identity` gives it is absolute. -/
abbrev Identity := {path : Path // path.head? = some .rootDir}

inductive PlannedPathKind where
  | create | registration | readGuard | absenceGuard | removal
  deriving DecidableEq

/-- `planned_path_identities`, an ordered map from identities to their kinds -/
structure PlannedIdentities where
  identities : Finset Identity := ∅
  kind : Identity → PlannedPathKind := fun _ => .create

namespace PlannedIdentities

/-- The keys of the map in their order. -/
def keys (planned : PlannedIdentities) : List Identity := planned.identities.sort

/-- `find_overlapping_planned_identity` -/
def findOverlapping (planned : PlannedIdentities) (target : Path) :
    Option (Identity × PlannedPathKind) :=
  let existing := target.ancestors.findSome? fun ancestor => planned.keys.find? (·.1 = ancestor)
  let next := planned.keys.find? (target ≤ ·.1)
  (existing.or (next.filter fun identity => target.isPrefixOf identity)).map fun identity =>
    (identity, planned.kind identity)

variable {planned planned' : PlannedIdentities} {target : Path} {identity : Identity}

theorem findOverlapping_overlaps {found : Identity × PlannedPathKind}
    (h : planned.findOverlapping target = some found) :
    found.1 ∈ planned.identities ∧ found.2 = planned.kind found.1 ∧
      found.1.1.Overlaps target := by
  have hkeys {p : Identity → Bool} {identity : Identity} (h : planned.keys.find? p = some identity) :
      identity ∈ planned.identities := (mem_sort _).mp (mem_of_find?_eq_some h)
  simp only [findOverlapping, map_eq_some_iff, or_eq_some_iff,
    filter_eq_some_iff] at h
  obtain ⟨identity, h, rfl⟩ := h
  rcases h with h | ⟨-, hnext, hbegins⟩
  · obtain ⟨ancestor, hancestor, hget⟩ := exists_of_findSome?_eq_some h
    have hinit := (mem_inits _ _).mp (mem_reverse.mp (mem_filter.mp hancestor).1)
    have heq : identity.1 = ancestor := by simpa using find?_some hget
    exact ⟨hkeys hget, rfl, .inl (heq ▸ hinit)⟩
  · exact ⟨hkeys hnext, rfl, .inr (List.isPrefixOf_iff_prefix.mp hbegins)⟩

theorem ancestors_found (hmem : identity ∈ planned.identities) (hbegins : identity.1 <+: target) :
    (target.ancestors.findSome? fun a => planned.keys.find? (·.1 = a)).isSome := by
  rw [findSome?_isSome_iff]
  refine ⟨identity.1, ?_, ?_⟩
  · have hne : identity.1 ≠ [] := by
      intro hnil
      have habs := identity.2
      rw [hnil] at habs
      cases habs
    simp [Path.ancestors, hbegins, hne]
  · rw [find?_isSome]
    exact ⟨identity, (mem_sort _).mpr hmem, decide_eq_true rfl⟩

/-- The first identity not below the target is one of its descendants when there are any. -/
theorem next_continues (hmem : identity ∈ planned.identities) (hbegins : target <+: identity.1) :
    ∃ next, planned.keys.find? (target ≤ ·.1) = some next ∧ target <+: next.1 := by
  obtain ⟨rest, hrest⟩ := hbegins
  have hle : target ≤ identity.1 := by
    rw [← hrest]
    exact not_lt.mp le_append_left
  have hin : identity ∈ planned.keys := (mem_sort _).mpr hmem
  have hfound : (planned.keys.find? (target ≤ ·.1)).isSome :=
    find?_isSome.mpr ⟨identity, hin, decide_eq_true hle⟩
  obtain ⟨next, hnext⟩ := isSome_iff_exists.mp hfound
  obtain ⟨hge, before, after, hkeys, hbefore⟩ := find?_eq_some_iff_append.mp hnext
  have hsorted : planned.keys.Pairwise (· ≤ ·) := pairwise_sort _ _
  have hbelow : next ≤ identity := by
    rw [hkeys] at hin hsorted
    rcases mem_append.mp hin with hin | hin
    · exact absurd hle (by simpa using hbefore identity hin)
    · rcases mem_cons.mp hin with heq | hin
      · exact heq.ge
      · exact (pairwise_cons.mp (pairwise_append.mp hsorted).2.1).1 _ hin
  exact ⟨next, hnext, continues_of_between (of_decide_eq_true hge) (hrest ▸ Subtype.coe_le_coe.mpr hbelow)⟩

theorem findOverlapping_isSome : (planned.findOverlapping target).isSome ↔
    ∃ identity ∈ planned.identities, identity.1.Overlaps target := by
  constructor
  · intro h
    obtain ⟨found, hfound⟩ := isSome_iff_exists.mp h
    obtain ⟨hmem, -, hoverlaps⟩ := findOverlapping_overlaps hfound
    exact ⟨found.1, hmem, hoverlaps⟩
  · rintro ⟨identity, hmem, hbegins | hbegins⟩
    · simp [findOverlapping, ancestors_found hmem hbegins]
    · obtain ⟨next, hnext, hcontinues⟩ := next_continues hmem hbegins
      simp [findOverlapping, hnext, hcontinues]

/-- `record_planned_path` of an identity after `reject_duplicate_plan_path` -/
def recordGuarded (planned : PlannedIdentities) (insertion : Identity × PlannedPathKind) :
    Option PlannedIdentities :=
  if (planned.findOverlapping insertion.1).isSome then none
  else some ⟨insert insertion.1 planned.identities,
    Function.update planned.kind insertion.1 insertion.2⟩

def Disjoint (planned : PlannedIdentities) : Prop :=
  ∀ a ∈ planned.identities, ∀ b ∈ planned.identities, a ≠ b → ¬ a.1.Overlaps b.1

theorem Disjoint.recordGuarded {insertion : Identity × PlannedPathKind}
    (h : planned.Disjoint) (hrecord : planned.recordGuarded insertion = some planned') :
    planned'.Disjoint := by
  unfold PlannedIdentities.recordGuarded at hrecord
  split at hrecord
  · cases hrecord
  · rename_i hguard
    rw [findOverlapping_isSome] at hguard
    obtain rfl := some.inj hrecord
    intro a ha b hb hne hoverlaps
    rcases mem_insert.mp ha with rfl | ha <;> rcases mem_insert.mp hb with rfl | hb
    · exact hne rfl
    · exact hguard ⟨b, hb, hoverlaps.symm⟩
    · exact hguard ⟨a, ha, hoverlaps⟩
    · exact h a ha b hb hne hoverlaps

theorem Disjoint.recordAll {insertions : List (Identity × PlannedPathKind)} (h : planned.Disjoint)
    (hrecord : insertions.foldlM PlannedIdentities.recordGuarded planned = some planned') :
    planned'.Disjoint := by
  induction insertions generalizing planned with
  | nil =>
    obtain rfl := some.inj hrecord
    exact h
  | cons insertion rest ih =>
    obtain ⟨next, hnext, hrest⟩ := bind_eq_some_iff.mp hrecord
    exact ih (h.recordGuarded hnext) hrest

/-- The search answers exactly when the target overlaps a planned identity, with one it
overlaps; a plan whose insertions were all guarded by it has disjoint paths. -/
theorem overlap_search_exact (planned : PlannedIdentities) (target : Path)
    (insertions : List (Identity × PlannedPathKind)) :
    ((planned.findOverlapping target).isSome ↔
      ∃ identity ∈ planned.identities, identity.1.Overlaps target) ∧
    (∀ found ∈ planned.findOverlapping target, found.1 ∈ planned.identities ∧
      found.2 = planned.kind found.1 ∧ found.1.1.Overlaps target) ∧
    ∀ plan ∈ insertions.foldlM recordGuarded {}, plan.Disjoint := by
  refine ⟨findOverlapping_isSome, fun _ => findOverlapping_overlaps, ?_⟩
  intro plan hplan
  have hempty : Disjoint {} := by
    intro a ha
    cases ha
  exact hempty.recordAll hplan

end PlannedIdentities

end Unica.Workspace
