import Mathlib.Tactic.Common

/-!
# The longest that fits, by halving

A loop narrows an interval to the largest number a test accepts. Where the test accepts every
smaller number with a number it accepts, the loop finds it.
-/

namespace Unica.Lib

def bisect (fits : Nat → Bool) (low high : Nat) : Nat :=
  if low < high then
    let middle := low + (high - low + 1) / 2
    if fits middle then bisect fits middle high else bisect fits low (middle - 1)
  else low
termination_by high - low

/-- The largest accepted number up to `high`, or zero where none is accepted. -/
structure Longest (fits : Nat → Bool) (high k : Nat) : Prop where
  le : k ≤ high
  accepted : k = 0 ∨ fits k = true
  largest : ∀ more, k < more → more ≤ high → fits more = false

variable {fits fits' : Nat → Bool} {low high k k' : Nat}

/-- A test that accepts more has no smaller number. -/
theorem Longest.le_of_imp (h : Longest fits high k) (h' : Longest fits' high k')
    (himp : ∀ n, n ≤ high → fits n = true → fits' n = true) : k ≤ k' := by
  by_contra hlt
  have hrefused := h'.largest k (by omega) h.le
  rcases h.accepted with hzero | haccepted
  · omega
  · rw [himp k h.le haccepted] at hrefused
    cases hrefused

theorem Longest.unique (h : Longest fits high k) (h' : Longest fits' high k')
    (hsame : ∀ n, n ≤ high → fits n = fits' n) : k = k' := by
  apply Nat.le_antisymm
  · exact h.le_of_imp h' fun n hn hfits => hsame n hn ▸ hfits
  · exact h'.le_of_imp h fun n hn hfits => (hsame n hn).symm ▸ hfits

theorem bisect_longest (hle : low ≤ high) (hlow : low = 0 ∨ fits low = true)
    (hdown : ∀ n more, 0 < n → n ≤ more → fits more = true → fits n = true)
    (hhigh : ∀ more, high < more → more ≤ k → fits more = false) (hk : high ≤ k) :
    Longest fits k (bisect fits low high) := by
  fun_induction bisect fits low high with
  | case1 low high hlt middle haccepted ih =>
    exact ih (by omega) (.inr haccepted) hhigh hk
  | case2 low high hlt middle hrefused ih =>
    refine ih (by omega) hlow (fun more hmore hle => ?_) (by omega)
    rw [← Bool.not_eq_true]
    exact fun hfits => hrefused (hdown middle more (by omega) (by omega) hfits)
  | case3 low high hge =>
    obtain rfl : low = high := by omega
    exact ⟨hk, hlow, hhigh⟩

end Unica.Lib
