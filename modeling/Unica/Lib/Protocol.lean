import Unica.Lib.Fault
import Mathlib.Logic.Relation

/-!
# Programs that follow a protocol

A protocol names the complete changes a program may make to its state, what an
interrupted change can leave behind, and the states in which the program has
stopped serving. `Performs` says that a program makes nothing but such changes,
that a failure happens between two of them or stops the program, and that a crash
leaves at most one change unfinished. An invariant is then proved of the changes
alone, never of the program.
-/

namespace Unica.Lib

open Prog

structure Protocol (σ : Type) where
  /-- Nothing the protocol is about has changed. -/
  quiet : σ → σ → Prop
  /-- One complete change. -/
  change : σ → σ → Prop
  /-- What one unfinished change can leave. -/
  partway : σ → σ → Prop
  stopped : σ → Prop

namespace Protocol

variable {σ ε α β : Type} (K : Protocol σ)

abbrev Follows : σ → σ → Prop := Relation.ReflTransGen K.change

/-- Any number of complete changes and at most one unfinished. -/
def Interrupted (s s' : σ) : Prop := ∃ t, K.Follows s t ∧ (K.quiet t s' ∨ K.partway t s')

/-- A failure that leaves the program serving leaves no change unfinished. -/
def Failed (s s' : σ) : Prop :=
  (∃ t, K.Follows s t ∧ K.quiet t s') ∨ (K.stopped s' ∧ K.Interrupted s s')

def Performs (V : Verdict → Prop) (m : Prog σ ε α) (s : σ) (R : α → σ → Prop) : Prop :=
  Ends V m s (fun a s' => K.Follows s s' ∧ R a s') (fun _ s' => K.Failed s s') (K.Interrupted s)

/-- The spec of the code that makes one change. -/
def Commits (V : Verdict → Prop) (m : Prog σ ε α) (s : σ) (R : α → σ → Prop) : Prop :=
  Ends V m s (fun a s' => K.change s s' ∧ R a s')
    (fun _ s' => K.quiet s s' ∨ (K.stopped s' ∧ (K.quiet s s' ∨ K.partway s s')))
    (fun s' => K.quiet s s' ∨ K.partway s s')

/-- One protocol allows all that another does. -/
structure Extends (K' : Protocol σ) : Prop where
  quiet : ∀ s s', K.quiet s s' → K'.quiet s s'
  change : ∀ s s', K.change s s' → K'.change s s'
  partway : ∀ s s', K.partway s s' → K'.partway s s'
  stopped : ∀ s, K.stopped s → K'.stopped s

variable {K} {V : Verdict → Prop} {m : Prog σ ε α} {f : α → Prog σ ε β} {s t u : σ} {K' : Protocol σ}

theorem Extends.follows (h : K.Extends K') (hf : K.Follows s t) : K'.Follows s t :=
  Relation.ReflTransGen.mono h.change _ _ hf

theorem Extends.interrupted (h : K.Extends K') (hi : K.Interrupted s t) : K'.Interrupted s t := by
  obtain ⟨u, hf, hq | hp⟩ := hi
  · exact ⟨u, h.follows hf, .inl (h.quiet _ _ hq)⟩
  · exact ⟨u, h.follows hf, .inr (h.partway _ _ hp)⟩

theorem Extends.failed (h : K.Extends K') (hi : K.Failed s t) : K'.Failed s t := by
  obtain ⟨u, hf, hq⟩ | ⟨hs, hi⟩ := hi
  · exact .inl ⟨u, h.follows hf, h.quiet _ _ hq⟩
  · exact .inr ⟨h.stopped _ hs, h.interrupted hi⟩

theorem Interrupted.of_follows (hf : K.Follows s t) (hi : K.Interrupted t u) : K.Interrupted s u := by
  obtain ⟨v, hv, hend⟩ := hi
  exact ⟨v, hf.trans hv, hend⟩

theorem Interrupted.of_quiet (h : K.quiet s t) : K.Interrupted s t := ⟨s, .refl, .inl h⟩

namespace Performs

variable {R : α → σ → Prop} {R' : β → σ → Prop} {R'' : α → σ → Prop}

theorem mono (h : K.Performs V m s R) (hk : K.Extends K')
    (hr : ∀ a s', R a s' → R'' a s') : K'.Performs V m s R'' :=
  Ends.mono h (fun a s' ha => ⟨hk.follows ha.1, hr a s' ha.2⟩) (fun _ _ he => hk.failed he)
    fun _ hc => hk.interrupted hc

theorem imp (h : K.Performs V m s R) (hr : ∀ a s', R a s' → R'' a s') : K.Performs V m s R'' :=
  Ends.mono h (fun a s' ha => ⟨ha.1, hr a s' ha.2⟩) (fun _ _ he => he) fun _ hc => hc

/-- A success has followed the protocol to where it is. -/
theorem follows (h : K.Performs V m s R) : K.Performs V m s fun a s' => R a s' ∧ K.Follows s s' :=
  Ends.mono h (fun _ _ ha => ⟨ha.1, ha.2, ha.1⟩) (fun _ _ he => he) fun _ hc => hc

theorem pure {a : α} (h : R a s) : K.Performs V (pure a : Prog σ ε α) s R := Ends.pure ⟨.refl, h⟩

theorem throw {e : ε} (hq : K.quiet s s) : K.Performs V (throw e : Prog σ ε α) s R :=
  Ends.throw (.inl ⟨s, .refl, hq⟩)

theorem of_observes {P : α → Prop} (h : Observes K.quiet V m s P) :
    K.Performs V m s fun a s' => s' = s ∧ P a := by
  refine Ends.mono h ?_ (fun _ _ hq => .inl ⟨s, .refl, hq⟩) fun _ hq => .of_quiet hq
  rintro a s' ⟨rfl, ha⟩
  exact ⟨.refl, rfl, ha⟩

theorem observe {P : α → Prop} (hm : Observes K.quiet V m s P)
    (hf : ∀ a, P a → K.Performs V (f a) s R') : K.Performs V (m >>= f) s R' :=
  Ends.observe hm hf (fun _ _ hq => .inl ⟨s, .refl, hq⟩) fun _ hq => .of_quiet hq

theorem get_bind {g : σ → Prog σ ε β} (h : K.Performs V (g s) s R') : K.Performs V (get >>= g) s R' := h

theorem of_commits (h : K.Commits V m s R) : K.Performs V m s R := by
  refine Ends.mono h (fun a s' ha => ⟨.single ha.1, ha.2⟩) ?_ fun s' hc => ⟨s, .refl, hc⟩
  rintro e s' (hq | ⟨hs, hi⟩)
  · exact .inl ⟨s, .refl, hq⟩
  · exact .inr ⟨hs, s, .refl, hi⟩

theorem bind (hm : K.Performs V m s R) (hf : ∀ a s', R a s' → K.Performs V (f a) s' R') :
    K.Performs V (m >>= f) s R' := by
  refine Ends.bind hm ?_
  rintro a t ⟨hst, ha⟩
  refine Ends.mono (hf a t ha) ?_ ?_ fun u hu => hu.of_follows hst
  · rintro b u ⟨htu, hb⟩
    exact ⟨hst.trans htu, hb⟩
  · rintro e u (⟨v, htv, hq⟩ | ⟨hstop, hi⟩)
    · exact .inl ⟨v, hst.trans htv, hq⟩
    · exact .inr ⟨hstop, hi.of_follows hst⟩

end Performs

end Protocol

end Unica.Lib
