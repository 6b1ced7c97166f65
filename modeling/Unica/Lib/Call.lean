import Mathlib.Tactic.Common

/-!
# Calls that keep their effects when they fail

A call runs over a state and returns a value or an error together with the state it
leaves. `Ends m s Q E` says that `m`, called in `s`, ends in `Q` with its value or in `E`
with its error, so that a specification describes the state behind both.
-/

namespace Unica.Lib

open List

def Call (σ ε α : Type) : Type := σ → Except ε α × σ

namespace Call

variable {σ τ ε ε' α β : Type}

def andThen (m : Call σ ε α) (f : α → Call σ ε β) : Call σ ε β := fun s =>
  match m s with
  | (.ok a, s') => f a s'
  | (.error e, s') => (.error e, s')

instance : Monad (Call σ ε) where
  pure a := fun s => (.ok a, s)
  bind := andThen

def throw (e : ε) : Call σ ε α := fun s => (.error e, s)

def get : Call σ ε σ := fun s => (.ok s, s)

def modify (f : σ → σ) : Call σ ε Unit := fun s => (.ok (), f s)

def ensure (p : Prop) [Decidable p] (e : ε) : Call σ ε Unit := if p then pure () else throw e

def lift : Except ε α → Call σ ε α
  | .ok a => pure a
  | .error e => throw e

/-- Make an error a value, as `match … { Ok(..) => .., Err(..) => .. }` does. -/
def reify (m : Call σ ε α) : Call σ ε' (Except ε α) := fun s => (.ok (m s).1, (m s).2)

/-- `let _ = …;` -/
def ignore (m : Call σ ε α) : Call σ ε' Unit := fun s => (.ok (), (m s).2)

/-- `result.map_err(f)`. -/
def mapError (f : ε → ε') (m : Call σ ε α) : Call σ ε' α := fun s => ((m s).1.mapError f, (m s).2)

/-- A call on one part of a larger state. -/
def zoom (view : σ → τ) (put : τ → σ → σ) (m : Call τ ε α) : Call σ ε α := fun s =>
  ((m (view s)).1, put (m (view s)).2 s)

def each (f : α → Call σ ε Unit) : List α → Call σ ε Unit
  | [] => pure ()
  | x :: rest => do
      f x
      each f rest

@[simp] theorem lift_ok_bind (a : α) (f : α → Call σ ε β) : (lift (.ok a) >>= f) = f a := rfl

@[simp] theorem get_bind_apply (f : σ → Call σ ε β) (s : σ) : ((get : Call σ ε σ) >>= f) s = f s s := rfl

theorem ensure_bind_apply (p : Prop) [Decidable p] (e : ε) (f : Unit → Call σ ε β) (s : σ) :
    ((ensure p e : Call σ ε Unit) >>= f) s = if p then f () s else (.error e, s) := by
  unfold ensure
  split <;> rfl

def Ends (m : Call σ ε α) (s : σ) (Q : α → σ → Prop) (E : ε → σ → Prop) : Prop :=
  match m s with
  | (.ok a, s') => Q a s'
  | (.error e, s') => E e s'

namespace Ends

variable {m : Call σ ε α} {f : α → Call σ ε β} {s : σ} {Q : α → σ → Prop} {E : ε → σ → Prop} {ε' : Type}

theorem pure {a : α} (h : Q a s) : Ends (pure a : Call σ ε α) s Q E := h

theorem throw {e : ε} (h : E e s) : Ends (throw e : Call σ ε α) s Q E := h

theorem get {Q : σ → σ → Prop} (h : Q s s) : Ends (get : Call σ ε σ) s Q E := h

theorem modify {g : σ → σ} {Q : Unit → σ → Prop} (h : Q () (g s)) :
    Ends (modify g : Call σ ε Unit) s Q E := h

theorem imp {Q' : α → σ → Prop} {E' : ε → σ → Prop} (h : Ends m s Q E)
    (hq : ∀ a s', Q a s' → Q' a s') (he : ∀ e s', E e s' → E' e s') : Ends m s Q' E' := by
  unfold Ends at h ⊢
  split at h
  · exact hq _ _ h
  · exact he _ _ h

theorem bind {Q : β → σ → Prop} (h : Ends m s (fun a s' => Ends (f a) s' Q E) E) :
    Ends (m >>= f) s Q E := by
  change Ends (andThen m f) s Q E
  unfold Ends andThen at *
  rcases hm : m s with ⟨_ | _, s'⟩ <;> simpa only [hm] using h

theorem ensure {p : Prop} [Decidable p] {e : ε} {Q : Unit → σ → Prop} (h : p → Q () s)
    (hne : ¬p → E e s) : Ends (ensure p e : Call σ ε Unit) s Q E := by
  unfold Call.ensure
  split
  · rename_i hp
    exact h hp
  · rename_i hp
    exact hne hp

theorem lift {x : Except ε α} (hok : ∀ a, x = .ok a → Q a s) (herror : ∀ e, x = .error e → E e s) :
    Ends (lift x : Call σ ε α) s Q E := by
  cases x with
  | ok a => exact hok a rfl
  | error e => exact herror e rfl

theorem reify {E' : ε' → σ → Prop} {Q' : Except ε α → σ → Prop}
    (h : Ends m s (fun a s' => Q' (.ok a) s') (fun e s' => Q' (.error e) s')) :
    Ends (reify m : Call σ ε' (Except ε α)) s Q' E' := by
  unfold Ends at h
  change Q' (m s).1 (m s).2
  split at h <;> simp_all

theorem ignore {E' : ε' → σ → Prop} {Q' : Unit → σ → Prop}
    (h : Ends m s (fun _ s' => Q' () s') (fun _ s' => Q' () s')) :
    Ends (ignore m : Call σ ε' Unit) s Q' E' := by
  unfold Ends at h
  change Q' () (m s).2
  split at h <;> simp_all

theorem mapError {g : ε → ε'} {E' : ε' → σ → Prop}
    (h : Ends m s Q fun e s' => E' (g e) s') : Ends (mapError g m) s Q E' := by
  unfold Ends at h
  unfold Ends Call.mapError
  rcases hm : m s with ⟨_ | _, s'⟩ <;> simpa only [hm, Except.mapError] using h

theorem zoom {τ : Type} {m : Call τ ε α} {view : σ → τ} {put : τ → σ → σ}
    (h : Ends m (view s) (fun a t => Q a (put t s)) (fun e t => E e (put t s))) :
    Ends (zoom view put m) s Q E := by
  unfold Ends at h
  unfold Ends Call.zoom
  rcases hm : m (view s) with ⟨_ | _, t⟩ <;> simpa only [hm] using h

/-- A property that every round keeps holds after the loop, and an error keeps what a failed
round leaves. -/
theorem each {g : α → Call σ ε Unit} {I : σ → Prop} {xs : List α}
    (hround : ∀ x ∈ xs, ∀ s, I s → Ends (g x) s (fun _ s' => I s') E) (h : I s) :
    Ends (each g xs) s (fun _ s' => I s') E := by
  induction xs generalizing s with
  | nil => exact h
  | cons x rest ih =>
    refine bind ((hround x mem_cons_self s h).imp ?_ fun _ _ he => he)
    intro _ s' hs'
    exact ih (fun y hy => hround y (mem_cons_of_mem _ hy)) hs'

/-- What holds behind both ends holds of the state the call leaves. -/
theorem state {I : σ → Prop} (h : Ends m s (fun _ s' => I s') (fun _ s' => I s')) : I (m s).2 := by
  unfold Ends at h
  split at h <;> simp_all

theorem ok {a : α} {s' : σ} (h : Ends m s Q E) (hm : m s = (.ok a, s')) : Q a s' := by
  unfold Ends at h
  simpa only [hm] using h

theorem error {e : ε} {s' : σ} (h : Ends m s Q E) (hm : m s = (.error e, s')) : E e s' := by
  unfold Ends at h
  simpa only [hm] using h

end Ends

/-- From every state that looks like `s`, the call ends in one that does, and a value it returns
satisfies `P`. -/
def Keeps (same : σ → σ → Prop) (m : Call σ ε α) (s : σ) (P : α → Prop) : Prop :=
  ∀ t, same s t → Ends m t (fun a u => same s u ∧ P a) fun _ u => same s u

namespace Keeps

variable {same : σ → σ → Prop} {m : Call σ ε α} {f : α → Call σ ε β} {s : σ} {P : α → Prop}
  {R : β → Prop} {e : ε}

theorem bind (h : Keeps same m s P) (hf : ∀ a, P a → Keeps same (f a) s R) : Keeps same (m >>= f) s R :=
  fun t ht => .bind ((h t ht).imp (fun a u hu => hf a hu.2 u hu.1) fun _ _ hu => hu)

theorem pure {a : α} (h : P a) : Keeps same (pure a : Call σ ε α) s P := fun _ ht => ⟨ht, h⟩

theorem throw : Keeps same (throw e : Call σ ε α) s P := fun _ ht => ht

theorem imp {P' : α → Prop} (h : Keeps same m s P) (hp : ∀ a, P a → P' a) : Keeps same m s P' :=
  fun t ht => (h t ht).imp (fun a _ hu => ⟨hu.1, hp a hu.2⟩) fun _ _ hu => hu

theorem get {P : σ → Prop} (h : ∀ t, same s t → P t) : Keeps same (get : Call σ ε σ) s P :=
  fun t ht => ⟨ht, h t ht⟩

theorem ensure {p : Prop} [Decidable p] {P : Unit → Prop} (h : p → P ()) : Keeps same (ensure p e) s P :=
  fun _ ht => .ensure (fun hp => ⟨ht, h hp⟩) fun _ => ht

theorem each {xs : List β} {g : β → Call σ ε Unit} {I : β → Prop}
    (h : ∀ x ∈ xs, Keeps same (g x) s fun _ => I x) : Keeps same (each g xs) s fun _ => ∀ x ∈ xs, I x := by
  induction xs with
  | nil => exact pure fun _ hx => absurd hx not_mem_nil
  | cons x rest ih =>
    refine bind (h x mem_cons_self) fun _ hx => ?_
    refine (ih fun y hy => h y (mem_cons_of_mem _ hy)).imp fun _ hrest => ?_
    exact forall_mem_cons.mpr ⟨hx, hrest⟩

end Keeps

end Call

end Unica.Lib
