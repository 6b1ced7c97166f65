import Mathlib.Logic.Relation

/-!
# Machines of several threads

A machine is a step function that is defined where a move is enabled. A run makes any
enabled moves in any order, as long as each meets the run's condition where it is made.
-/

namespace Unica.Lib

variable {σ μ : Type} {step : σ → μ → Option σ} {ok : σ → μ → Prop} {s s' : σ}

/-- The runs of a machine all of whose moves meet a condition. -/
def Runs (step : σ → μ → Option σ) (ok : σ → μ → Prop) : σ → σ → Prop :=
  Relation.ReflTransGen fun s s' => ∃ move, ok s move ∧ step s move = some s'

/-- Make the moves one after another. -/
def replay (step : σ → μ → Option σ) (s : σ) : List μ → Option σ
  | [] => some s
  | move :: rest => (step s move).bind fun s' => replay step s' rest

/-- What holds at the start and is kept by each of the moves holds after them. -/
theorem replay_invariant {I : σ → Prop} {moves : List μ} (h : replay step s moves = some s') (h0 : I s)
    (hstep : ∀ t, ∀ move ∈ moves, ∀ t', I t → step t move = some t' → I t') : I s' := by
  induction moves generalizing s with
  | nil =>
    cases h
    exact h0
  | cons move rest ih =>
    obtain ⟨t, hmove, hrest⟩ := Option.bind_eq_some_iff.mp h
    exact ih hrest (hstep s move List.mem_cons_self t h0 hmove) fun t m hm => hstep t m (.tail _ hm)

namespace Runs

/-- What holds at the start and is kept by every move of the run holds in every state reached. -/
theorem invariant {I : σ → Prop} (h : Runs step ok s s') (h0 : I s)
    (hstep : ∀ t move t', I t → ok t move → step t move = some t' → I t') : I s' := by
  induction h with
  | refl => exact h0
  | tail _ hmove ih =>
    obtain ⟨move, hok, hmove⟩ := hmove
    exact hstep _ move _ ih hok hmove

/-- One move more. -/
theorem next {t : σ} {m : μ} (h : Runs step ok s t) (hok : ok t m) (hstep : step t m = some s') :
    Runs step ok s s' :=
  .tail h ⟨m, hok, hstep⟩

theorem of_replay {moves : List μ} (h : replay step s moves = some s') :
    Runs step (fun _ _ => True) s s' := by
  induction moves generalizing s with
  | nil =>
    cases h
    exact .refl
  | cons move rest ih =>
    obtain ⟨t, hmove, hrest⟩ := Option.bind_eq_some_iff.mp h
    exact .head ⟨move, trivial, hmove⟩ (ih hrest)

end Runs

end Unica.Lib
