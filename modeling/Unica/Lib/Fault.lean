import Mathlib.Tactic.Common

/-!
# Programs that can fail or crash at any fallible step

A program runs over a state and consumes one verdict per fallible step: the step
proceeds, it fails with its error, or the process dies there. An exhausted list of
verdicts lets every further step proceed. `Sat V m s Q` says what every run of `m`
from `s` ends in when all its verdicts satisfy `V`, so that one specification
serves fault-free runs, runs with failures and runs that are cut short.
-/

namespace Unica.Lib

inductive Verdict where
  | proceed | fail | crash
  deriving DecidableEq

inductive Outcome (ε α : Type) where
  | ok (value : α)
  | error (error : ε)
  | crashed
  deriving DecidableEq

/-- What a run leaves behind: its outcome, the state and the verdicts it did not use. -/
structure Run (σ ε α : Type) where
  outcome : Outcome ε α
  state : σ
  rest : List Verdict

def Prog (σ ε α : Type) : Type := σ → List Verdict → Run σ ε α

namespace Prog

variable {σ ε α β : Type}

/-- Run what follows where the first part succeeded; an error or a crash ends the run. -/
def andThen (m : Prog σ ε α) (f : α → Prog σ ε β) : Prog σ ε β := fun s o =>
  let r := m s o
  match r.outcome with
  | .ok a => f a r.state r.rest
  | .error e => ⟨.error e, r.state, r.rest⟩
  | .crashed => ⟨.crashed, r.state, r.rest⟩

instance : Monad (Prog σ ε) where
  pure a := fun s o => ⟨.ok a, s, o⟩
  bind := andThen

def throw (e : ε) : Prog σ ε α := fun s o => ⟨.error e, s, o⟩

def get : Prog σ ε σ := fun s o => ⟨.ok s, s, o⟩

def modify (f : σ → σ) : Prog σ ε Unit := fun s o => ⟨.ok (), f s, o⟩

def lift : Except ε α → Prog σ ε α
  | .ok a => pure a
  | .error e => throw e

/-- A fallible step with no effect of its own: it only asks for a verdict. -/
def attempt (e : ε) : Prog σ ε Unit := fun s o =>
  match o with
  | [] | .proceed :: _ => ⟨.ok (), s, o.tail⟩
  | .fail :: rest => ⟨.error e, s, rest⟩
  | .crash :: rest => ⟨.crashed, s, rest⟩

/-- Make an error a value, as `match … { Ok(..) => .., Err(..) => .. }` does. A crash stays one. -/
def reify (m : Prog σ ε α) : Prog σ ε (Except ε α) := fun s o =>
  let r := m s o
  match r.outcome with
  | .ok a => ⟨.ok (.ok a), r.state, r.rest⟩
  | .error e => ⟨.ok (.error e), r.state, r.rest⟩
  | .crashed => ⟨.crashed, r.state, r.rest⟩

/-- `result.map_err(f)`. -/
def mapError (f : ε → ε) (m : Prog σ ε α) : Prog σ ε α := do
  match ← m.reify with
  | .ok a => pure a
  | .error e => throw (f e)

/-- Act on the state when the program fails, and fail with the same error. -/
def onError (act : ε → σ → σ) (m : Prog σ ε α) : Prog σ ε α := do
  match ← m.reify with
  | .ok a => pure a
  | .error e => do
      modify (act e)
      throw e

variable {m : Prog σ ε α} {f : α → Prog σ ε β} {s : σ} {o : List Verdict} {a : α} {e : ε}

theorem bind_of_ok (h : (m s o).outcome = .ok a) : (m >>= f) s o = f a (m s o).state (m s o).rest := by
  change andThen m f s o = _
  simp only [andThen, h]

theorem bind_of_error (h : (m s o).outcome = .error e) :
    (m >>= f) s o = ⟨.error e, (m s o).state, (m s o).rest⟩ := by
  change andThen m f s o = _
  simp only [andThen, h]

theorem bind_of_crashed (h : (m s o).outcome = .crashed) :
    (m >>= f) s o = ⟨.crashed, (m s o).state, (m s o).rest⟩ := by
  change andThen m f s o = _
  simp only [andThen, h]

end Prog

open Prog List

section Specifications

variable {σ ε α β : Type} {V : Verdict → Prop} {m : Prog σ ε α} {f : α → Prog σ ε β} {s : σ}
  {P : Outcome ε α → σ → Prop} {Q : Outcome ε β → σ → Prop} {g : σ → Prog σ ε β} {e : ε}
  {act : ε → σ → σ} {k : Unit → Prog σ ε β}

/-- Every run of `m` from `s` whose verdicts satisfy `V` ends in `Q`. -/
def Sat (V : Verdict → Prop) (m : Prog σ ε α) (s : σ) (Q : Outcome ε α → σ → Prop) : Prop :=
  ∀ o : List Verdict, (∀ v ∈ o, V v) → Q (m s o).outcome (m s o).state ∧ ∀ v ∈ (m s o).rest, V v

namespace Sat

variable {Q' : Outcome ε α → σ → Prop}

theorem mono (h : Sat V m s P) (hq : ∀ out s', P out s' → Q' out s') : Sat V m s Q' :=
  fun o ho => ⟨hq _ _ (h o ho).1, (h o ho).2⟩

theorem and (h : Sat V m s P) (h' : Sat V m s Q') : Sat V m s fun out s' => P out s' ∧ Q' out s' :=
  fun o ho => ⟨⟨(h o ho).1, (h' o ho).1⟩, (h o ho).2⟩

theorem pure {a : α} (h : P (.ok a) s) : Sat V (pure a : Prog σ ε α) s P :=
  fun _ ho => ⟨h, ho⟩

theorem throw (h : P (.error e) s) : Sat V (throw e : Prog σ ε α) s P :=
  fun _ ho => ⟨h, ho⟩

theorem get {P : Outcome ε σ → σ → Prop} (h : P (.ok s) s) : Sat V (Prog.get : Prog σ ε σ) s P :=
  fun _ ho => ⟨h, ho⟩

theorem modify {g : σ → σ} {P : Outcome ε Unit → σ → Prop} (h : P (.ok ()) (g s)) :
    Sat V (modify g : Prog σ ε Unit) s P :=
  fun _ ho => ⟨h, ho⟩

theorem attempt {P : Outcome ε Unit → σ → Prop} (hok : P (.ok ()) s)
    (hfail : V .fail → P (.error e) s) (hcrash : V .crash → P .crashed s) :
    Sat V (attempt e : Prog σ ε Unit) s P := by
  intro o ho
  match o with
  | [] => exact ⟨hok, ho⟩
  | .proceed :: rest => exact ⟨hok, fun v hv => ho v (mem_cons_of_mem _ hv)⟩
  | .fail :: rest => exact ⟨hfail (ho _ (by simp)), fun v hv => ho v (mem_cons_of_mem _ hv)⟩
  | .crash :: rest => exact ⟨hcrash (ho _ (by simp)), fun v hv => ho v (mem_cons_of_mem _ hv)⟩

/-- Sequencing: what follows a success is specified from the state it left. -/
theorem bind (hm : Sat V m s P) (hok : ∀ a s', P (.ok a) s' → Sat V (f a) s' Q)
    (herr : ∀ e s', P (.error e) s' → Q (.error e) s') (hcrash : ∀ s', P .crashed s' → Q .crashed s') :
    Sat V (m >>= f) s Q := by
  intro o ho
  obtain ⟨hP, hrest⟩ := hm o ho
  cases hout : (m s o).outcome with
  | ok a =>
    rw [hout] at hP
    rw [bind_of_ok hout]
    exact hok a _ hP _ hrest
  | error e =>
    rw [hout] at hP
    rw [bind_of_error hout]
    exact ⟨herr e _ hP, hrest⟩
  | crashed =>
    rw [hout] at hP
    rw [bind_of_crashed hout]
    exact ⟨hcrash _ hP, hrest⟩

theorem reify {P' : Outcome ε (Except ε α) → σ → Prop} (hm : Sat V m s P)
    (hok : ∀ a s', P (.ok a) s' → P' (.ok (.ok a)) s')
    (herr : ∀ e s', P (.error e) s' → P' (.ok (.error e)) s')
    (hcrash : ∀ s', P .crashed s' → P' .crashed s') : Sat V m.reify s P' := by
  intro o ho
  obtain ⟨hP, hrest⟩ := hm o ho
  cases hout : (m s o).outcome with
  | ok a =>
    rw [hout] at hP
    simp only [Prog.reify, hout]
    exact ⟨hok a _ hP, hrest⟩
  | error e =>
    rw [hout] at hP
    simp only [Prog.reify, hout]
    exact ⟨herr e _ hP, hrest⟩
  | crashed =>
    rw [hout] at hP
    simp only [Prog.reify, hout]
    exact ⟨hcrash _ hP, hrest⟩

theorem onError {P' : Outcome ε α → σ → Prop} (hm : Sat V m s P)
    (hok : ∀ a s', P (.ok a) s' → P' (.ok a) s') (herr : ∀ e s', P (.error e) s' → P' (.error e) (act e s'))
    (hcrash : ∀ s', P .crashed s' → P' .crashed s') : Sat V (m.onError act) s P' := by
  refine bind (P := fun (out : Outcome ε (Except ε α)) s' => match out with
    | .ok (.ok a) => P (.ok a) s'
    | .ok (.error e) => P (.error e) s'
    | .error _ => False
    | .crashed => P .crashed s') (reify hm (fun _ _ h => h) (fun _ _ h => h) fun _ h => h) ?_
    (fun _ _ h => h.elim) hcrash
  intro r s' hr
  cases r with
  | ok a => exact pure (hok a s' hr)
  | error e =>
    exact bind (P := fun out t => out = .ok () ∧ t = act e s') (modify ⟨rfl, rfl⟩)
      (fun _ t ht => throw (ht.2 ▸ herr e s' hr)) (fun _ _ h => by cases h.1) fun _ h => by cases h.1

end Sat

/-- `m` only looks: a success leaves the state alone and returns a value in `P`, a failure or a
crash leaves a state related to it by `R`. -/
def Observes (R : σ → σ → Prop) (V : Verdict → Prop) (m : Prog σ ε α) (s : σ) (P : α → Prop) : Prop :=
  Sat V m s fun out s' => match out with
    | .ok a => s' = s ∧ P a
    | .error _ => R s s'
    | .crashed => R s s'

namespace Observes

variable {R : σ → σ → Prop} {P : α → Prop} {P' : β → Prop}

theorem mono {P'' : α → Prop} (h : Observes R V m s P) (hp : ∀ a, P a → P'' a) : Observes R V m s P'' := by
  refine Sat.mono h fun out s' hq => ?_
  cases out with
  | ok a => exact ⟨hq.1, hp a hq.2⟩
  | error e => exact hq
  | crashed => exact hq

theorem pure {a : α} (h : P a) : Observes R V (pure a : Prog σ ε α) s P := Sat.pure ⟨rfl, h⟩

theorem throw (hr : R s s) : Observes R V (throw e : Prog σ ε α) s P := Sat.throw hr

theorem attempt {P : Unit → Prop} (hr : R s s) (h : P ()) : Observes R V (attempt e : Prog σ ε Unit) s P :=
  Sat.attempt ⟨rfl, h⟩ (fun _ => hr) fun _ => hr

theorem bind (hm : Observes R V m s P) (hf : ∀ a, P a → Observes R V (f a) s P') :
    Observes R V (m >>= f) s P' := by
  refine Sat.bind hm ?_ (fun _ _ h => h) fun _ h => h
  rintro a s' ⟨rfl, ha⟩
  exact hf a ha

theorem get_bind (h : Observes R V (g s) s P') : Observes R V (Prog.get >>= g) s P' := h

/-- An error handler whose mark `R` allows keeps an observer one. -/
theorem onError (hm : Observes R V m s P)
    (hact : ∀ e s', R s s' → R s (act e s')) : Observes R V (m.onError act) s P :=
  Sat.onError hm (fun _ _ h => h) (fun e s' h => hact e s' h) fun _ h => h

end Observes

/-- A run of `m` from `s` ends in `Q` where it succeeds, in `E` where it fails and in `C` where it
is cut short. -/
def Ends (V : Verdict → Prop) (m : Prog σ ε α) (s : σ) (Q : α → σ → Prop) (E : ε → σ → Prop)
    (C : σ → Prop) : Prop :=
  Sat V m s fun out s' => match out with
    | .ok a => Q a s'
    | .error e => E e s'
    | .crashed => C s'

namespace Ends

variable {Q : α → σ → Prop} {Q' : β → σ → Prop} {E : ε → σ → Prop} {C : σ → Prop} {E' : ε → σ → Prop}
  {Q'' : α → σ → Prop} {R : σ → σ → Prop} {F : ε → σ → Prop}

theorem sat {R : Outcome ε α → σ → Prop} (h : Ends V m s Q E C) (hq : ∀ a s', Q a s' → R (.ok a) s')
    (he : ∀ e s', E e s' → R (.error e) s') (hc : ∀ s', C s' → R .crashed s') : Sat V m s R := by
  refine .mono h fun out s' hout => ?_
  cases out with
  | ok a => exact hq a s' hout
  | error e => exact he e s' hout
  | crashed => exact hc s' hout

theorem mono {C' : σ → Prop} (h : Ends V m s Q E C)
    (hq : ∀ a s', Q a s' → Q'' a s') (he : ∀ e s', E e s' → E' e s') (hc : ∀ s', C s' → C' s') :
    Ends V m s Q'' E' C' :=
  h.sat hq he hc

theorem pure {a : α} (h : Q a s) : Ends V (pure a : Prog σ ε α) s Q E C := Sat.pure h

theorem throw (h : E e s) : Ends V (throw e : Prog σ ε α) s Q E C := Sat.throw h

theorem get {Q : σ → σ → Prop} (h : Q s s) : Ends V (Prog.get : Prog σ ε σ) s Q E C := Sat.get h

theorem modify {g : σ → σ} {Q : Unit → σ → Prop} (h : Q () (g s)) :
    Ends V (modify g : Prog σ ε Unit) s Q E C :=
  Sat.modify h

theorem attempt {Q : Unit → σ → Prop} (hok : Q () s) (hfail : V .fail → E e s)
    (hcrash : V .crash → C s) : Ends V (attempt e : Prog σ ε Unit) s Q E C :=
  Sat.attempt hok hfail hcrash

theorem and {C' : σ → Prop} (h : Ends V m s Q E C)
    (h' : Ends V m s Q'' E' C') : Ends V m s (fun a s' => Q a s' ∧ Q'' a s')
      (fun e s' => E e s' ∧ E' e s') fun s' => C s' ∧ C' s' := by
  refine Sat.mono (.and h h') fun out s' hout => ?_
  cases out <;> exact hout

theorem bind {P : α → σ → Prop} (hm : Ends V m s P E C)
    (hf : ∀ a s', P a s' → Ends V (f a) s' Q' E C) : Ends V (m >>= f) s Q' E C :=
  Sat.bind hm hf (fun _ _ h => h) fun _ h => h

/-- A program that neither fails nor is cut short succeeds. -/
theorem exists_ok (h : Ends V m s Q (fun _ _ => False) fun _ => False) : ∃ a s', Q a s' := by
  have hrun := (h [] nofun).1
  cases hout : (m s []).outcome with
  | ok a =>
    rw [hout] at hrun
    exact ⟨a, _, hrun⟩
  | error e | crashed =>
    rw [hout] at hrun
    exact hrun.elim

theorem get_bind (h : Ends V (g s) s Q' E C) : Ends V (Prog.get >>= g) s Q' E C := h

theorem modify_bind {g : σ → σ} (h : Ends V (k ()) (g s) Q' E C) :
    Ends V (Prog.modify g >>= k) s Q' E C := h

/-- What follows a step that only looks knows what the step saw and starts where it started. -/
theorem observe {P : α → Prop} (hm : Observes R V m s P)
    (hf : ∀ a, P a → Ends V (f a) s Q' E C) (he : ∀ e s', R s s' → E e s')
    (hc : ∀ s', R s s' → C s') : Ends V (m >>= f) s Q' E C := by
  refine Sat.bind hm ?_ he hc
  rintro a s' ⟨rfl, ha⟩
  exact hf a ha

/-- An observation whose failure and whose crash are described alike. -/
theorem look {P : α → Prop} (hm : Observes R V m s P) (hc : ∀ s', R s s' → C s')
    (hf : ∀ a, P a → Ends V (f a) s Q' (fun _ => C) C) : Ends V (m >>= f) s Q' (fun _ => C) C :=
  observe hm hf (fun _ => hc) hc

theorem reify (h : Ends V m s Q E C) :
    Ends V m.reify s (fun r s' => match r with
      | .ok a => Q a s'
      | .error e => E e s') E' C :=
  Sat.reify h (fun _ _ h => h) (fun _ _ h => h) fun _ h => h

theorem onError (h : Ends V m s Q F C)
    (hact : ∀ e s', F e s' → E e (act e s')) : Ends V (m.onError act) s Q E C :=
  Sat.onError h (fun _ _ h => h) hact fun _ h => h

theorem mapError {g : ε → ε} (h : Ends V m s Q F C)
    (hg : ∀ e s', F e s' → E (g e) s') : Ends V (m.mapError g) s Q E C := by
  refine bind (reify h) fun r s' hr => ?_
  cases r with
  | ok a => exact pure hr
  | error e => exact throw (hg e s' hr)

end Ends

/-! ## Looking at two states -/

/-- With no verdict against them, two programs that look at their states see the same. -/
def Alike (m m' : Prog σ ε α) (s s' : σ) : Prop :=
  (∃ a, m s [] = ⟨.ok a, s, []⟩ ∧ m' s' [] = ⟨.ok a, s', []⟩)
    ∨ ∃ e, (m s []).outcome = .error e ∧ (m' s' []).outcome = .error e

namespace Alike

variable {m' : Prog σ ε α} {f' : α → Prog σ ε β} {s' : σ}

theorem outcome_eq (h : Alike m m' s s') : (m s []).outcome = (m' s' []).outcome := by
  rcases h with ⟨a, hs, hs'⟩ | ⟨e, hs, hs'⟩
  · rw [hs, hs']
  · rw [hs, hs']

theorem pure (a : α) : Alike (pure a : Prog σ ε α) (pure a) s s' := .inl ⟨a, rfl, rfl⟩

theorem attempt (e : ε) : Alike (attempt e : Prog σ ε Unit) (attempt e) s s' :=
  .inl ⟨(), rfl, rfl⟩

theorem get_bind {g g' : σ → Prog σ ε β} (h : Alike (g s) (g' s') s s') :
    Alike (Prog.get >>= g) (Prog.get >>= g') s s' := h

theorem bind (hm : Alike m m' s s') (hf : ∀ a, Alike (f a) (f' a) s s') :
    Alike (m >>= f) (m' >>= f') s s' := by
  rcases hm with ⟨a, hs, hs'⟩ | ⟨e, hs, hs'⟩
  · have hfirst : (m >>= f) s [] = f a s [] := by
      rw [bind_of_ok (by rw [hs]), hs]
    have hsecond : (m' >>= f') s' [] = f' a s' [] := by
      rw [bind_of_ok (by rw [hs']), hs']
    unfold Alike
    rw [hfirst, hsecond]
    exact hf a
  · refine .inr ⟨e, ?_, ?_⟩
    · rw [bind_of_error hs]
    · rw [bind_of_error hs']

end Alike

/-! ## Runs that get so far and fail -/

/-- Where its steps may proceed, `m` succeeds and leaves the other verdicts to what follows. -/
def Passes (m : Prog σ ε α) (s : σ) (a : α) (s' : σ) : Prop :=
  ∃ k, ∀ rest, m s (List.replicate k .proceed ++ rest) = ⟨.ok a, s', rest⟩

/-- Some run fails and leaves this state. -/
def MayFail (m : Prog σ ε α) (s s' : σ) : Prop := ∃ o e, (m s o).outcome = .error e ∧ (m s o).state = s'

namespace Passes

variable {s' s'' : σ} {a : α} {b : β}

theorem pure : Passes (pure a : Prog σ ε α) s a s := ⟨0, fun _ => rfl⟩

theorem attempt : Passes (attempt e : Prog σ ε Unit) s () s := ⟨1, fun _ => rfl⟩

theorem bind (hm : Passes m s a s') (hf : Passes (f a) s' b s'') : Passes (m >>= f) s b s'' := by
  obtain ⟨k, hk⟩ := hm
  obtain ⟨l, hl⟩ := hf
  refine ⟨k + l, fun rest => ?_⟩
  have hsplit : replicate (k + l) Verdict.proceed ++ rest
      = replicate k .proceed ++ (replicate l .proceed ++ rest) := by
    rw [← replicate_append_replicate, append_assoc]
  have hrun := hk (replicate l .proceed ++ rest)
  rw [hsplit, bind_of_ok (by rw [hrun]), hrun, hl]

theorem get_bind (h : Passes (g s) s b s'') : Passes (Prog.get >>= g) s b s'' := h

theorem modify_bind {g : σ → σ} (h : Passes (k ()) (g s) b s'') : Passes (Prog.modify g >>= k) s b s'' := h

theorem reify (h : Passes m s a s') : Passes m.reify s (.ok a) s' := by
  obtain ⟨k, hk⟩ := h
  refine ⟨k, fun rest => ?_⟩
  simp only [Prog.reify, hk]

theorem mapError {g : ε → ε} (h : Passes m s a s') : Passes (m.mapError g) s a s' := bind h.reify pure

end Passes

namespace MayFail

variable {s' s'' : σ} {a : α}

theorem attempt : MayFail (attempt e : Prog σ ε Unit) s s := ⟨[.fail], e, rfl, rfl⟩

theorem bind (h : MayFail m s s') : MayFail (m >>= f) s s' := by
  obtain ⟨o, e, hout, rfl⟩ := h
  exact ⟨o, e, by rw [bind_of_error hout], by rw [bind_of_error hout]⟩

theorem after (hm : Passes m s a s') (hf : MayFail (f a) s' s'') : MayFail (m >>= f) s s'' := by
  obtain ⟨k, hk⟩ := hm
  obtain ⟨o, e, hout, hstate⟩ := hf
  have hrun := hk o
  refine ⟨replicate k .proceed ++ o, e, ?_, ?_⟩
  · rw [bind_of_ok (by rw [hrun]), hrun, hout]
  · rw [bind_of_ok (by rw [hrun]), hrun, hstate]

theorem get_bind (h : MayFail (g s) s s'') : MayFail (Prog.get >>= g) s s'' := h

end MayFail

end Specifications

end Unica.Lib
