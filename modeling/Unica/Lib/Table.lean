import Mathlib.Data.Finmap
import Mathlib.Data.List.Sort
import Mathlib.Algebra.Order.BigOperators.Group.Multiset
import Mathlib.Algebra.Order.Group.Nat

/-!
# Finite tables and sums over their values

A table is a finite map with one entry per key, compared by lookup. `total f`
adds a weight over all entries, so the exact value of an incrementally
maintained counter can be stated and updated one key at a time.
-/

namespace Unica.Lib

open Finmap List Option Sigma

abbrev Table (K V : Type*) := Finmap (fun _ : K => V)

namespace Table

variable {K V : Type*}

def total (f : V → Nat) (m : Table K V) : Nat := (m.entries.map fun x => f x.2).sum

def existsValue (p : K → V → Prop) [∀ k v, Decidable (p k v)] (m : Table K V) : Bool :=
  @decide (∃ x ∈ m.entries, p x.1 x.2) Multiset.decidableExistsMultiset

variable {f g : V → Nat} {m : Table K V} {k : K} {u v : V}

theorem total_mono (h : ∀ v, f v ≤ g v) : total f m ≤ total g m :=
  Multiset.sum_map_le_sum_map _ _ fun x _ => h x.2

/-- The keys in ascending order, each once. -/
def sortedKeys (m : Table Nat V) : List Nat :=
  Quot.liftOn (m.entries.map Sigma.fst) (fun l => l.insertionSort (· ≤ ·)) fun l₁ l₂ h =>
    ((perm_insertionSort _ l₁).trans (h.trans (perm_insertionSort _ l₂).symm)).eq_of_pairwise
      (fun _ _ _ _ => Nat.le_antisymm) (pairwise_insertionSort _ _)
      (pairwise_insertionSort _ _)

theorem coe_sortedKeys (m : Table Nat V) : (m.sortedKeys : Multiset Nat) = m.entries.map fst := by
  unfold sortedKeys
  induction m.entries.map fst using Quot.ind with
  | mk l => exact Quot.sound (perm_insertionSort _ l)

theorem mem_sortedKeys {m : Table Nat V} {k : Nat} : k ∈ m.sortedKeys ↔ ∃ v, m.lookup k = some v := by
  rw [← Multiset.mem_coe, coe_sortedKeys, Multiset.mem_map]
  constructor
  · rintro ⟨⟨k', v⟩, hm, rfl⟩
    exact ⟨v, mem_lookup_iff.mpr hm⟩
  · rintro ⟨v, hv⟩
    exact ⟨⟨k, v⟩, mem_lookup_iff.mp hv, rfl⟩

theorem nodup_sortedKeys (m : Table Nat V) : m.sortedKeys.Nodup := by
  rw [← Multiset.coe_nodup, coe_sortedKeys]
  exact m.nodupKeys.nodup_keys

/-- Values of which only one contributes. -/
theorem flatMap_values_of_unique {W : Type} {m : Table Nat V} {f : V → List W} {k : Nat} {v : V}
    (hk : m.lookup k = some v) (hother : ∀ k' v', k' ≠ k → m.lookup k' = some v' → f v' = []) :
    (m.sortedKeys.filterMap m.lookup).flatMap f = f v := by
  have hnil : ∀ keys : List Nat, k ∉ keys → (keys.filterMap m.lookup).flatMap f = [] := by
    intro keys hmem
    refine flatMap_eq_nil_iff.mpr fun v' hv' => ?_
    obtain ⟨k', hk', hlookup⟩ := mem_filterMap.mp hv'
    exact hother k' v' (fun heq => hmem (heq ▸ hk')) hlookup
  have hmem := mem_sortedKeys.mpr ⟨v, hk⟩
  obtain ⟨before, after, hsplit⟩ := append_of_mem hmem
  have hnodup := m.nodup_sortedKeys
  rw [hsplit] at hnodup ⊢
  have hbefore : k ∉ before := fun h => (nodup_append.mp hnodup).2.2 k h k mem_cons_self rfl
  have hafter : k ∉ after := (nodup_cons.mp (nodup_append.mp hnodup).2.1).1
  rw [filterMap_append, filterMap_cons, hk, flatMap_append, flatMap_cons,
    hnil before hbefore, hnil after hafter]
  simp

/-- The number of entries. -/
def size (m : Table K V) : Nat := m.entries.card

/-- The entries a test accepts, as `HashMap::retain` leaves them. -/
def retain (p : K → V → Bool) (m : Table K V) : Table K V where
  entries := m.entries.filter fun x => p x.1 x.2
  nodupKeys := Multiset.nodup_keys.mp
    (Multiset.nodup_of_le (Multiset.map_le_map (Multiset.filter_le _ _)) m.nodupKeys.nodup_keys)

/-- Every value changed in place, as a loop over `values_mut` does. -/
def mapValues (g : V → V) (m : Table K V) : Table K V where
  entries := m.entries.map fun x => ⟨x.1, g x.2⟩
  nodupKeys := by
    refine Multiset.nodup_keys.mp ?_
    rw [Multiset.keys, Multiset.map_map]
    exact m.nodupKeys.nodup_keys

variable [DecidableEq K]

theorem existsValue_iff {p : K → V → Prop} [∀ k v, Decidable (p k v)] :
    m.existsValue p = true ↔ ∃ k v, m.lookup k = some v ∧ p k v := by
  simp only [existsValue, decide_eq_true_eq]
  constructor
  · rintro ⟨⟨k, v⟩, hm, hp⟩
    exact ⟨k, v, mem_lookup_iff.mpr hm, hp⟩
  · rintro ⟨k, v, hl, hp⟩
    exact ⟨⟨k, v⟩, mem_lookup_iff.mp hl, hp⟩

theorem total_insert_of_absent (h : m.lookup k = none) : total f (m.insert k v) = f v + total f m := by
  have hk : k ∉ m := lookup_eq_none.mp h
  simp [total, entries_insert_of_notMem hk]

theorem size_insert_of_absent (h : m.lookup k = none) : size (m.insert k v) = size m + 1 := by
  have hk : k ∉ m := lookup_eq_none.mp h
  simp [size, entries_insert_of_notMem hk]

theorem insert_erase_self (h : m.lookup k = some v) : (m.erase k).insert k v = m := by
  refine ext_lookup fun x => ?_
  by_cases hx : x = k
  · subst hx
    rw [lookup_insert, h]
  · rw [lookup_insert_of_ne _ hx, lookup_erase_ne hx]

theorem insert_eq_insert_erase : m.insert k v = (m.erase k).insert k v := by
  refine ext_lookup fun x => ?_
  by_cases hx : x = k
  · subst hx
    simp
  · rw [lookup_insert_of_ne _ hx, lookup_insert_of_ne _ hx, lookup_erase_ne hx]

theorem total_erase (h : m.lookup k = some v) : f v + total f (m.erase k) = total f m := by
  conv_rhs => rw [← insert_erase_self h]
  rw [total_insert_of_absent (lookup_erase k m)]

theorem total_replace (h : m.lookup k = some v) : f v + total f (m.insert k u) = f u + total f m := by
  rw [insert_eq_insert_erase, total_insert_of_absent (lookup_erase k m), ← total_erase h]
  omega

theorem le_total (h : m.lookup k = some v) : f v ≤ total f m := by
  rw [← total_erase h]
  exact Nat.le_add_right _ _

@[grind =] theorem lookup_insert_ite {x : K} : (m.insert k v).lookup x = if x = k then some v else m.lookup x := by
  by_cases hx : x = k
  · rw [hx, if_pos rfl, lookup_insert]
  · rw [if_neg hx, lookup_insert_of_ne _ hx]

/-- What a table holds after an insertion is the new value, or was there. -/
theorem lookup_insert_cases {x : K} {w : V} (h : (m.insert k v).lookup x = some w) :
    (x = k ∧ w = v) ∨ (x ≠ k ∧ m.lookup x = some w) := by
  grind

@[grind =] theorem lookup_erase_ite {x : K} : (m.erase k).lookup x = if x = k then none else m.lookup x := by
  by_cases hx : x = k
  · rw [hx, if_pos rfl, lookup_erase]
  · rw [if_neg hx, lookup_erase_ne hx]

theorem lookup_eq_some_iff : m.lookup k = some v ↔ (⟨k, v⟩ : Σ _ : K, V) ∈ m.entries :=
  mem_lookup_iff

@[grind =] theorem lookup_retain {p : K → V → Bool} :
    (m.retain p).lookup k = some v ↔ m.lookup k = some v ∧ p k v = true := by
  rw [lookup_eq_some_iff, lookup_eq_some_iff]
  exact Multiset.mem_filter

theorem lookup_mapValues {g : V → V} : (m.mapValues g).lookup k = (m.lookup k).map g := by
  refine ext fun w => ?_
  rw [map_eq_some_iff, lookup_eq_some_iff]
  constructor
  · intro h
    obtain ⟨x, hx, heq⟩ := Multiset.mem_map.mp h
    cases heq
    exact ⟨x.2, lookup_eq_some_iff.mpr hx, rfl⟩
  · rintro ⟨v, hv, rfl⟩
    exact Multiset.mem_map.mpr ⟨⟨k, v⟩, lookup_eq_some_iff.mp hv, rfl⟩

/-- Remove the keys one after another. -/
def eraseAll (ks : List K) (m : Table K V) : Table K V := ks.foldl (fun m k => m.erase k) m

@[grind =] theorem lookup_eraseAll (ks : List K) : (m.eraseAll ks).lookup k = if k ∈ ks then none else m.lookup k := by
  induction ks generalizing m with
  | nil => simp [eraseAll]
  | cons k' ks ih =>
    show (eraseAll ks (m.erase k')).lookup k = _
    rw [ih]
    by_cases hk : k = k'
    · subst hk
      simp
    · simp [hk, lookup_erase_ne hk]

/-- Put a value under a key or clear the key. -/
def set (m : Table K V) (k : K) : Option V → Table K V
  | some v => m.insert k v
  | none => m.erase k

@[grind =] theorem lookup_set {x : K} {o : Option V} : (set m k o).lookup x = if x = k then o else m.lookup x := by
  cases o with
  | none => exact lookup_erase_ite
  | some v => exact lookup_insert_ite

/-- A sum changes by what the key held before and holds now. -/
theorem total_set (f : V → Nat) (m : Table K V) (k : K) (o : Option V) :
    total f (set m k o) + (m.lookup k).elim 0 f = total f m + o.elim 0 f := by
  cases hk : m.lookup k with
  | none =>
    cases o with
    | none =>
      have hsame : m.erase k = m := by
        refine ext_lookup fun x => ?_
        rw [lookup_erase_ite]
        split
        · rename_i heq
          rw [heq, hk]
        · rfl
      simp [set, hsame]
    | some v =>
      have hinsert := total_insert_of_absent (f := f) (v := v) hk
      simp only [set, Option.elim]
      omega
  | some u =>
    cases o with
    | none =>
      have herase := total_erase (f := f) hk
      simp only [set, Option.elim]
      omega
    | some v =>
      have hreplace := total_replace (f := f) (u := v) hk
      simp only [set, Option.elim]
      omega

/-- Two keys contribute to a sum. -/
theorem add_le_total {f : V → Nat} {k' : K} {v' : V} (hk : m.lookup k = some v) (hk' : m.lookup k' = some v')
    (hne : k ≠ k') : f v + f v' ≤ total f m := by
  have herase := total_erase (f := f) hk
  have hrest : (m.erase k).lookup k' = some v' := by
    rw [lookup_erase_ite, if_neg hne.symm, hk']
  have hle := le_total (f := f) hrest
  omega

theorem exists_of_total_pos {f : V → Nat} (h : 0 < total f m) : ∃ k v, m.lookup k = some v ∧ 0 < f v := by
  by_contra hnone
  simp only [not_exists, not_and, Nat.not_lt, Nat.le_zero] at hnone
  have hzero : total f m = 0 := by
    refine Multiset.sum_eq_zero fun n hn => ?_
    obtain ⟨x, hx, rfl⟩ := Multiset.mem_map.mp hn
    exact hnone x.1 x.2 (lookup_eq_some_iff.mpr hx)
  omega

/-! ### Counting entries -/

/-- The number of entries whose value passes a test. -/
def count (p : V → Bool) (m : Table K V) : Nat := total (fun v => (p v).toNat) m

variable {p : V → Bool}

theorem count_set (p : V → Bool) (m : Table K V) (k : K) (o : Option V) :
    count p (set m k o) + ((m.lookup k).any p).toNat = count p m + (o.any p).toNat := by
  have htotal := total_set (fun v => (p v).toNat) m k o
  have helim : ∀ o : Option V, o.elim 0 (fun v => (p v).toNat) = (o.any p).toNat := by
    intro o
    cases o <;> rfl
  rw [helim, helim] at htotal
  exact htotal

/-- A value replaced by one that the test treats alike keeps the count. -/
theorem count_set_of_eq {o : Option V} (h : o.any p = (m.lookup k).any p) : count p (set m k o) = count p m := by
  have hcount := count_set p m k o
  rw [h] at hcount
  exact Nat.add_right_cancel hcount

omit [DecidableEq K] in
@[simp] theorem count_empty : count p (∅ : Table K V) = 0 := rfl

theorem count_pos (h : m.lookup k = some v) (hp : p v = true) : 0 < count p m := by
  have hle := le_total (f := fun v => (p v).toNat) h
  rw [hp] at hle
  exact hle

theorem exists_of_count_pos (h : 0 < count p m) : ∃ k v, m.lookup k = some v ∧ p v = true := by
  obtain ⟨k, v, hlookup, hpos⟩ := exists_of_total_pos h
  refine ⟨k, v, hlookup, ?_⟩
  cases hp : p v with
  | true => rfl
  | false => simp [hp] at hpos

theorem eq_of_count_le_one {k' : K} {v' : V} (h : count p m ≤ 1) (hk : m.lookup k = some v) (hp : p v = true)
    (hk' : m.lookup k' = some v') (hp' : p v' = true) : k = k' := by
  by_contra hne
  have hle := add_le_total (f := fun v => (p v).toNat) hk hk' hne
  rw [hp, hp'] at hle
  exact absurd (hle.trans h) (by decide)

theorem lookup_foldl_erase (keys : List K) (m : Table K V) (k : K) :
    (keys.foldl (fun m k => m.erase k) m).lookup k = if k ∈ keys then none else m.lookup k := by
  induction keys generalizing m with
  | nil => rfl
  | cons head rest ih =>
    rw [foldl_cons, ih]
    by_cases hk : k = head
    · subst hk
      simp
    · simp [hk, lookup_erase_ne hk]

/-- The secondary index `idx` is the inverse of `f` on the values of `m`. -/
def Indexes {I : Type*} [DecidableEq I] (idx : Table I K) (m : Table K V) (f : V → I) : Prop :=
  ∀ i k, idx.lookup i = some k ↔ ∃ v, m.lookup k = some v ∧ f v = i

namespace Indexes

variable {I : Type*} [DecidableEq I] {idx : Table I K} {f : V → I} {i j : I}

theorem empty : Indexes (∅ : Table I K) (∅ : Table K V) f := by
  intro i k
  simp

section

variable (h : Indexes idx m f)
include h

/-- An index is a bijection: two identities never lead to one key. -/
theorem injective (hi : idx.lookup i = some k) (hj : idx.lookup j = some k) : i = j := by
  obtain ⟨v, hv, rfl⟩ := (h i k).mp hi
  obtain ⟨v', hv', rfl⟩ := (h j k).mp hj
  rw [hv] at hv'
  cases hv'
  rfl

theorem lookup_of (hv : m.lookup k = some v) : idx.lookup (f v) = some k :=
  (h _ _).mpr ⟨v, hv, rfl⟩

theorem insert (hk : m.lookup k = none) (hi : idx.lookup (f v) = none) :
    Indexes (idx.insert (f v) k) (m.insert k v) f := by
  intro i x
  by_cases hix : i = f v
  · subst hix
    rw [lookup_insert]
    constructor
    · intro hx
      cases hx
      exact ⟨v, lookup_insert _, rfl⟩
    · rintro ⟨v', hv', hf⟩
      by_cases hxk : x = k
      · rw [hxk]
      · rw [lookup_insert_of_ne _ hxk] at hv'
        rw [← hf, h.lookup_of hv'] at hi
        cases hi
  · rw [lookup_insert_of_ne _ hix, h i x]
    by_cases hxk : x = k
    · subst hxk
      rw [lookup_insert, hk]
      constructor
      · rintro ⟨_, hn, _⟩
        cases hn
      · rintro ⟨_, hs, hf⟩
        cases hs
        exact absurd hf.symm hix
    · rw [lookup_insert_of_ne _ hxk]

theorem replace (hk : m.lookup k = some v) (hf : f u = f v) : Indexes idx (m.insert k u) f := by
  intro i x
  rw [h i x]
  by_cases hxk : x = k
  · subst hxk
    rw [hk]
    simp [hf]
  · rw [lookup_insert_of_ne _ hxk]

/-- Writing an entry and its index entry, over an entry of the same identity if there is one. -/
theorem put (hfree : ∀ k', idx.lookup (f v) = some k' → k' = k)
    (hold : ∀ u, m.lookup k = some u → f u = f v) : Indexes (idx.insert (f v) k) (m.insert k v) f := by
  cases hk : m.lookup k with
  | none =>
    refine h.insert hk ?_
    cases hi : idx.lookup (f v) with
    | none => rfl
    | some k' =>
      obtain ⟨u, hu, -⟩ := (h _ _).mp hi
      rw [hfree k' hi, hk] at hu
      cases hu
  | some u =>
    have hsame : idx.insert (f v) k = idx := by
      refine ext_lookup fun i => ?_
      by_cases hi : i = f v
      · rw [hi, lookup_insert, ← hold u hk, h.lookup_of hk]
      · rw [lookup_insert_of_ne _ hi]
    rw [hsame]
    exact h.replace hk (hold u hk).symm

theorem erase (hk : m.lookup k = some v) : Indexes (idx.erase (f v)) (m.erase k) f := by
  intro i x
  by_cases hix : i = f v
  · subst hix
    rw [lookup_erase]
    constructor
    · intro hn
      cases hn
    · rintro ⟨v', hv', hf⟩
      by_cases hxk : x = k
      · rw [hxk, lookup_erase] at hv'
        cases hv'
      · rw [lookup_erase_ne hxk] at hv'
        have hx := h.lookup_of hv'
        rw [hf, h.lookup_of hk] at hx
        cases hx
        exact absurd rfl hxk
  · rw [lookup_erase_ne hix, h i x]
    by_cases hxk : x = k
    · subst hxk
      rw [lookup_erase, hk]
      constructor
      · rintro ⟨_, hs, hf⟩
        cases hs
        exact absurd hf.symm hix
      · rintro ⟨_, hn, _⟩
        cases hn
    · rw [lookup_erase_ne hxk]

end

end Indexes

end Table

end Unica.Lib
