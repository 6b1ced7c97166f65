import Mathlib.Tactic.Common
import Mathlib.Algebra.Ring.Nat

/-!
# Bounded machine arithmetic on naturals

A machine word is a natural number below a bound `w`. The checked operations
return `none` where the word operation would overflow or underflow; the wrapping
operations are what an unchecked word operation computes. They agree exactly
where the checked ones succeed.
-/

namespace Unica.Lib

def checkedAdd (w a b : Nat) : Option Nat := if a + b < w then some (a + b) else none

def checkedSub (a b : Nat) : Option Nat := if b ≤ a then some (a - b) else none

def wrappingAdd (w a b : Nat) : Nat := (a + b) % w

def wrappingSub (w a b : Nat) : Nat := (a + w - b) % w

variable {w a b c : Nat}

@[simp] theorem checkedAdd_eq_some : checkedAdd w a b = some c ↔ a + b < w ∧ a + b = c := by
  simp [checkedAdd]

@[simp] theorem checkedAdd_eq_none : checkedAdd w a b = none ↔ w ≤ a + b := by
  simp [checkedAdd]

@[simp] theorem checkedSub_eq_some : checkedSub a b = some c ↔ b ≤ a ∧ a - b = c := by
  simp [checkedSub]

theorem wrappingAdd_of_lt (h : a + b < w) : wrappingAdd w a b = a + b :=
  Nat.mod_eq_of_lt h

theorem wrappingSub_of_le (h : b ≤ a) (ha : a < w) : wrappingSub w a b = a - b := by
  unfold wrappingSub
  rw [show a + w - b = a - b + w by omega, Nat.add_mod_right, Nat.mod_eq_of_lt (by omega)]

/-- The error an absent value stands for, as `Option::ok_or`. -/
def okOr {ε α : Type*} (e : ε) : Option α → Except ε α
  | some a => .ok a
  | none => .error e

variable {ε : Type*} {α β : Type} {e e' : ε} {o : Option α} {x : Except ε α} {f : α → Except ε β} {y : β}

@[simp] theorem okOr_eq_ok {a : α} : okOr e o = .ok a ↔ o = some a := by
  cases o <;> simp [okOr]

/-- Refuse with `e` where the condition holds. -/
def refuseIf {ε : Type*} (p : Prop) [Decidable p] (e : ε) : Except ε Unit :=
  if p then .error e else .ok ()

variable {p : Prop} [Decidable p]

@[simp] theorem refuseIf_eq_ok {u : Unit} : refuseIf p e = .ok u ↔ ¬ p := by
  unfold refuseIf
  split <;> simp_all

/-- A sequence of fallible computations succeeds only through a successful first part. -/
theorem bind_eq_ok : (x >>= f) = .ok y ↔ ∃ a, x = .ok a ∧ f a = .ok y := by
  cases x with
  | error | ok => simp [bind, Except.bind]

/-- The value of a check carries nothing. -/
theorem exists_unit {p : Unit → Prop} : (∃ u, p u) ↔ p () :=
  ⟨fun ⟨_, h⟩ => h, fun h => ⟨_, h⟩⟩

theorem okOr_eq_error : okOr e o = .error e' ↔ o = none ∧ e = e' := by
  cases o <;> simp [okOr]

theorem refuseIf_eq_error : refuseIf p e = .error e' ↔ p ∧ e = e' := by
  unfold refuseIf
  split <;> simp_all

theorem bind_eq_error : (x >>= f) = .error e ↔ x = .error e ∨ ∃ a, x = .ok a ∧ f a = .error e := by
  cases x with
  | error | ok => simp [bind, Except.bind]

theorem map_eq_ok {ε α β : Type*} {x : Except ε α} {f : α → β} {y : β} :
    x.map f = .ok y ↔ ∃ a, x = .ok a ∧ f a = y := by
  cases x <;> simp [Except.map]

theorem okOr_bind_eq_ok : (okOr e o >>= f) = .ok y ↔ ∃ a, o = some a ∧ f a = .ok y := by
  simp [bind_eq_ok]

theorem refuseIf_bind_eq_ok {f : Unit → Except ε β} : (refuseIf p e >>= f) = .ok y ↔ ¬ p ∧ f () = .ok y := by
  rw [bind_eq_ok]
  constructor
  · rintro ⟨⟨⟩, hp, hf⟩
    exact ⟨refuseIf_eq_ok.mp hp, hf⟩
  · rintro ⟨hp, hf⟩
    exact ⟨(), refuseIf_eq_ok.mpr hp, hf⟩

end Unica.Lib
