import Unica.Lib.Table

/-!
# Journals of undoable changes

A journal lists the changes made to a table since it was `before`. Every item names the
keys it changed; keys of different items are disjoint and a key of no item is as it was.
`stands i` says what an item knows of its own keys, then and now. Taking back the items
one by one, in any order, leads back to the table as it was.
-/

namespace Unica.Lib

open List

variable {K V ι : Type} [DecidableEq K] {keys : ι → List K}
  {stands : ι → Table K V → Table K V → Prop} {before now now' : Table K V} {i i' : ι}
  {items items' : List ι}

/-- Two tables agree outside some keys. -/
def AgreeOutside (ks : List K) (t t' : Table K V) : Prop :=
  ∀ k, k ∉ ks → t'.lookup k = t.lookup k

/-- An item's knowledge is about its own keys only. -/
def Local (keys : ι → List K) (stands : ι → Table K V → Table K V → Prop) : Prop :=
  ∀ i before now now', (∀ k ∈ keys i, now'.lookup k = now.lookup k) →
    stands i before now → stands i before now'

structure Journalled (keys : ι → List K) (stands : ι → Table K V → Table K V → Prop)
    (before now : Table K V) (items : List ι) : Prop where
  disjoint : items.Pairwise fun i j => (keys i).Disjoint (keys j)
  stands : ∀ i ∈ items, stands i before now
  frame : ∀ k, (∀ i ∈ items, k ∉ keys i) → now.lookup k = before.lookup k

namespace Journalled

theorem empty : Journalled keys stands before before [] where
  disjoint := .nil
  stands := fun _ h => absurd h not_mem_nil
  frame := fun _ _ => rfl

theorem eq_of_empty (h : Journalled keys stands before now []) : now = before :=
  Finmap.ext_lookup fun k => h.frame k fun _ hi => absurd hi not_mem_nil

theorem perm (h : Journalled keys stands before now items) (hp : items.Perm items') :
    Journalled keys stands before now items' where
  disjoint := (hp.pairwise_iff fun h => h.symm).mp h.disjoint
  stands := fun i hi => h.stands i (hp.mem_iff.mpr hi)
  frame := fun k hk => h.frame k fun i hi => hk i (hp.mem_iff.mp hi)

/-- What an item that keeps clear of the changed keys knew still stands. -/
theorem stands_of_agree (hl : Local keys stands) (h : Journalled keys stands before now items)
    {ks : List K} (hagree : AgreeOutside ks now now') (hi : i ∈ items)
    (hd : ks.Disjoint (keys i)) : stands i before now' :=
  hl i before now now' (fun k hk => hagree k fun hks => hd hks hk) (h.stands i hi)

/-- A new change, on keys no item has. -/
theorem push (hl : Local keys stands) (h : Journalled keys stands before now items)
    (hagree : AgreeOutside (keys i) now now') (hi : stands i before now')
    (hfree : ∀ j ∈ items, (keys i).Disjoint (keys j)) :
    Journalled keys stands before now' (i :: items) where
  disjoint := .cons hfree h.disjoint
  stands := by
    intro j hj
    rcases mem_cons.mp hj with rfl | hj
    · exact hi
    · exact h.stands_of_agree hl hagree hj (hfree j hj)
  frame := by
    intro k hk
    rw [hagree k (hk i mem_cons_self)]
    exact h.frame k fun j hj => hk j (mem_cons_of_mem _ hj)

/-- A further change on the keys of the latest item. -/
theorem replace (hl : Local keys stands) (h : Journalled keys stands before now (i :: items))
    (hkeys : keys i' = keys i) (hagree : AgreeOutside (keys i) now now')
    (hi : stands i' before now') : Journalled keys stands before now' (i' :: items) := by
  have hfree := (pairwise_cons.mp h.disjoint).1
  refine ⟨.cons (fun j hj => hkeys ▸ hfree j hj) (pairwise_cons.mp h.disjoint).2, ?_, ?_⟩
  · intro j hj
    rcases mem_cons.mp hj with rfl | hj
    · exact hi
    · exact h.stands_of_agree hl hagree (mem_cons_of_mem _ hj) (hfree j hj)
  · intro k hk
    have hki : k ∉ keys i := hkeys ▸ hk i' mem_cons_self
    rw [hagree k hki]
    refine h.frame k fun j hj => ?_
    rcases mem_cons.mp hj with rfl | hj
    · exact hki
    · exact hk j (mem_cons_of_mem _ hj)

/-- One item is taken back: its keys are as they were. -/
theorem pop (hl : Local keys stands) (h : Journalled keys stands before now (i :: items))
    (hagree : AgreeOutside (keys i) now now') (hback : ∀ k ∈ keys i, now'.lookup k = before.lookup k) :
    Journalled keys stands before now' items := by
  have hfree := (pairwise_cons.mp h.disjoint).1
  refine ⟨(pairwise_cons.mp h.disjoint).2, ?_, ?_⟩
  · intro j hj
    exact h.stands_of_agree hl hagree (mem_cons_of_mem _ hj) (hfree j hj)
  · intro k hk
    by_cases hki : k ∈ keys i
    · exact hback k hki
    · rw [hagree k hki]
      refine h.frame k fun j hj => ?_
      rcases mem_cons.mp hj with rfl | hj
      · exact hki
      · exact hk j hj

end Journalled

end Unica.Lib
