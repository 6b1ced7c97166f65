import Unica.Lib.Fault

/-!
# Programs that make at most one durable change

A store's operation looks, may refuse for a reason of its own, and then makes one
durable change. A fault before the change leaves everything as it was; a fault
after it leaves the change in place behind an error of another kind. `Stays` is the
specification of what comes before the change, `Updates` the one of the whole
operation; both keep apart a refusal and a fault, so that without faults only the
refusals remain.
-/

namespace Unica.Lib

open Prog

/-- How the programs of one store fail. -/
structure Discipline (σ ε : Type) where
  /-- Nothing durable has changed. -/
  same : σ → σ → Prop
  /-- The errors of a program that made no change. -/
  before : ε → Prop
  /-- The errors of a program whose change is in place. -/
  after : ε → Prop
  same_refl : ∀ s, same s s
  same_trans : ∀ s t u, same s t → same t u → same s u

namespace Prog

variable {σ τ ε ε' α : Type}

/-- Clean up when the program fails, ignore how the cleanup ends, and fail with the same error. -/
def cleaningUp (m : Prog σ ε α) (cleanup : Prog σ ε Unit) : Prog σ ε α := do
  match ← m.reify with
  | .ok a => pure a
  | .error e => do
      let _ ← cleanup.reify
      throw e

def mapOutcome (f : ε → ε') : Outcome ε α → Outcome ε' α
  | .ok a => .ok a
  | .error e => .error (f e)
  | .crashed => .crashed

/-- Run a program on one part of a larger state, with its errors translated. -/
def within (get : σ → τ) (set : τ → σ → σ) (f : ε → ε') (m : Prog τ ε α) : Prog σ ε' α := fun s o =>
  let r := m (get s) o
  ⟨mapOutcome f r.outcome, set r.state s, r.rest⟩

end Prog

/-- No step of the run fails and none is cut short. -/
def Proceeds (v : Verdict) : Prop := v = .proceed

@[simp] theorem proceeds_fail : ¬ Proceeds .fail := nofun

@[simp] theorem proceeds_crash : ¬ Proceeds .crash := nofun

theorem Ends.within {σ τ ε ε' α : Type} {V : Verdict → Prop} {get : σ → τ} {set : τ → σ → σ}
    {f : ε → ε'} {m : Prog τ ε α} {s : σ} {Q : α → τ → Prop} {E : ε → τ → Prop} {C : τ → Prop}
    {Q' : α → σ → Prop} {E' : ε' → σ → Prop} {C' : σ → Prop} (h : Ends V m (get s) Q E C)
    (hq : ∀ a t, Q a t → Q' a (set t s)) (he : ∀ e t, E e t → E' (f e) (set t s))
    (hc : ∀ t, C t → C' (set t s)) : Ends V (m.within get set f) s Q' E' C' := by
  intro o ho
  obtain ⟨hm, hrest⟩ := h o ho
  refine ⟨?_, hrest⟩
  simp only [Prog.within]
  cases hout : (m (get s) o).outcome with
  | ok a =>
    rw [hout] at hm
    exact hq a _ hm
  | error e =>
    rw [hout] at hm
    exact he e _ hm
  | crashed =>
    rw [hout] at hm
    exact hc _ hm

namespace Discipline

variable {σ ε α β : Type} (D : Discipline σ ε) (V : Verdict → Prop)

/-- A program that changes nothing durable and refuses only where `C` allows it. -/
def Stays (m : Prog σ ε α) (s : σ) (P : α → σ → Prop) (C : Prop) : Prop :=
  Ends V m s (fun a s' => D.same s s' ∧ P a s')
    (fun e s' => D.same s s' ∧ D.before e ∧ (V .fail ∨ C)) (fun s' => D.same s s' ∧ V .crash)

/-- A program that only looks. -/
abbrev Looks (m : Prog σ ε α) (s : σ) (P : α → Prop) (C : Prop) : Prop :=
  D.Stays V m s (fun a s' => s' = s ∧ P a) C

/-- A program that makes at most one durable change: it keeps everything and returns a value in
`keep`, or it ends in a state that `write` relates to its value. -/
def Updates (m : Prog σ ε α) (s : σ) (keep : α → Prop) (C : Prop) (write : α → σ → Prop) : Prop :=
  Sat V m s fun out s' =>
    (D.same s s' ∧ match out with
      | .ok a => keep a
      | .error e => D.before e ∧ (V .fail ∨ C)
      | .crashed => V .crash) ∨
    ∃ a, write a s' ∧ match out with
      | .ok b => b = a
      | .error e => D.after e ∧ V .fail
      | .crashed => V .crash

variable {D V} {m : Prog σ ε α} {f : α → Prog σ ε β} {s : σ} {C : Prop}
  {P : α → σ → Prop} {P' : β → σ → Prop} {Q : α → Prop}

namespace Stays

theorem pure {a : α} (h : P a s) : D.Stays V (pure a : Prog σ ε α) s P C :=
  Ends.pure ⟨D.same_refl s, h⟩

theorem throw {e : ε} (he : D.before e) (hc : C) : D.Stays V (throw e : Prog σ ε α) s P C :=
  Ends.throw ⟨D.same_refl s, he, .inr hc⟩

theorem attempt {e : ε} {P : Unit → σ → Prop} (he : D.before e) (h : P () s) :
    D.Stays V (attempt e : Prog σ ε Unit) s P C :=
  Ends.attempt ⟨D.same_refl s, h⟩ (fun hv => ⟨D.same_refl s, he, .inl hv⟩)
    fun hv => ⟨D.same_refl s, hv⟩

theorem modify {g : σ → σ} {P : Unit → σ → Prop} (hg : D.same s (g s)) (h : P () (g s)) :
    D.Stays V (modify g : Prog σ ε Unit) s P C :=
  Ends.modify ⟨hg, h⟩

theorem lift {x : Except ε α} (hok : ∀ a, x = .ok a → P a s)
    (herr : ∀ e, x = .error e → D.before e ∧ C) : D.Stays V (lift x : Prog σ ε α) s P C := by
  cases x with
  | ok a => exact pure (hok a rfl)
  | error e => exact throw (herr e rfl).1 (herr e rfl).2

theorem bind (hm : D.Stays V m s P C) (hf : ∀ a s', D.same s s' → P a s' → D.Stays V (f a) s' P' C) :
    D.Stays V (m >>= f) s P' C := by
  refine Ends.bind hm ?_
  rintro a t ⟨hst, ha⟩
  exact Ends.mono (hf a t hst ha) (fun _ _ h => ⟨D.same_trans _ _ _ hst h.1, h.2⟩)
    (fun _ _ h => ⟨D.same_trans _ _ _ hst h.1, h.2⟩) fun _ h => ⟨D.same_trans _ _ _ hst h.1, h.2⟩

theorem look (hm : D.Looks V m s Q C) (hf : ∀ a, Q a → D.Stays V (f a) s P' C) :
    D.Stays V (m >>= f) s P' C := by
  refine bind hm ?_
  rintro a s' - ⟨rfl, ha⟩
  exact hf a ha

theorem mono {P'' : α → σ → Prop} {C' : Prop} (hm : D.Stays V m s P C)
    (hp : ∀ a s', D.same s s' → P a s' → P'' a s') (hc : C → C') : D.Stays V m s P'' C' :=
  Ends.mono hm (fun a s' h => ⟨h.1, hp a s' h.1 h.2⟩)
    (fun _ _ h => ⟨h.1, h.2.1, h.2.2.imp_right hc⟩) fun _ h => h

theorem weaken {D' : Discipline σ ε} (hm : D.Stays V m s P C) (hs : ∀ s s', D.same s s' → D'.same s s')
    (hb : ∀ e, D.before e → D'.before e) : D'.Stays V m s P C :=
  Ends.mono hm (fun _ _ h => ⟨hs _ _ h.1, h.2⟩) (fun _ _ h => ⟨hs _ _ h.1, hb _ h.2.1, h.2.2⟩)
    fun _ h => ⟨hs _ _ h.1, h.2⟩

theorem get_bind {g : σ → Prog σ ε β} (h : D.Stays V (g s) s P' C) : D.Stays V (Prog.get >>= g) s P' C := h

/-- A cleanup that changes nothing durable however it ends keeps the specification. -/
theorem cleaningUp {cleanup : Prog σ ε Unit} (hm : D.Stays V m s P C)
    (hc : ∀ s', D.same s s' → Ends V cleanup s' (fun _ t => D.same s' t) (fun _ t => D.same s' t)
      fun t => D.same s' t ∧ V .crash) : D.Stays V (m.cleaningUp cleanup) s P C := by
  refine Ends.bind (.reify hm) fun r t ht => ?_
  cases r with
  | ok a => exact Ends.pure ht
  | error e =>
    obtain ⟨hst, hbefore, hcause⟩ := ht
    have hclean : Ends V cleanup.reify t (fun _ u => D.same t u)
        (fun e u => D.same s u ∧ D.before e ∧ (V .fail ∨ C)) fun u => D.same s u ∧ V .crash :=
      .mono (E := fun _ _ => False) (.reify (hc t hst)) (fun r u hu => by cases r <;> exact hu)
        (fun _ _ h => h.elim) fun u hu => ⟨D.same_trans _ _ _ hst hu.1, hu.2⟩
    exact Ends.bind hclean fun _ u hu => .throw ⟨D.same_trans _ _ _ hst hu, hbefore, hcause⟩

end Stays

namespace Looks

variable {Q : α → Prop} {Q' : β → Prop}

theorem pure {a : α} (h : Q a) : D.Looks V (pure a : Prog σ ε α) s Q C := Stays.pure ⟨rfl, h⟩

theorem attempt {e : ε} (he : D.before e) : D.Looks V (attempt e : Prog σ ε Unit) s (fun _ => True) C :=
  Stays.attempt he ⟨rfl, trivial⟩

theorem lift {x : Except ε α} (herr : ∀ e, x = .error e → D.before e ∧ C) :
    D.Looks V (lift x : Prog σ ε α) s (fun a => x = .ok a) C :=
  Stays.lift (fun _ h => ⟨rfl, h⟩) herr

theorem bind (hm : D.Looks V m s Q C) (hf : ∀ a, Q a → D.Looks V (f a) s Q' C) :
    D.Looks V (m >>= f) s Q' C :=
  Stays.look hm hf

theorem mono {Q'' : α → Prop} {C' : Prop} (hm : D.Looks V m s Q C) (hq : ∀ a, Q a → Q'' a)
    (hc : C → C') : D.Looks V m s Q'' C' :=
  Stays.mono hm (fun a _ _ h => ⟨h.1, hq a h.2⟩) hc

/-- Any specification of the rest that allows what a look can end in. -/
theorem bind_sat {R : Outcome ε β → σ → Prop} (hm : D.Looks V m s Q C) (hf : ∀ a, Q a → Sat V (f a) s R)
    (he : ∀ e s', D.same s s' → D.before e → V .fail ∨ C → R (.error e) s')
    (hc : ∀ s', D.same s s' → V .crash → R .crashed s') : Sat V (m >>= f) s R := by
  unfold Looks Stays at hm
  refine Sat.bind hm ?_ (fun e s' h => he e s' h.1 h.2.1 h.2.2) fun s' h => hc s' h.1 h.2
  rintro a s' ⟨-, rfl, ha⟩
  exact hf a ha

end Looks

namespace Updates

variable {keep : α → Prop} {keep' : β → Prop} {write : α → σ → Prop} {write' : β → σ → Prop}

theorem pure {a : α} (h : keep a) : D.Updates V (pure a : Prog σ ε α) s keep C write :=
  Sat.pure (.inl ⟨D.same_refl s, h⟩)

/-- What comes before the change, then the rest. -/
theorem after_stays (hm : D.Stays V m s P C)
    (hf : ∀ a s', D.same s s' → P a s' → D.Updates V (f a) s' keep' C write') :
    D.Updates V (m >>= f) s keep' C write' := by
  unfold Stays at hm
  refine Sat.bind hm ?_ (fun e s' h => .inl h) fun s' h => .inl h
  rintro a t ⟨hst, ha⟩
  refine Sat.mono (hf a t hst ha) fun out u => ?_
  rintro (⟨htu, hout⟩ | hwritten)
  · exact .inl ⟨D.same_trans _ _ _ hst htu, hout⟩
  · exact .inr hwritten

theorem look (hm : D.Looks V m s Q C)
    (hf : ∀ a, Q a → D.Updates V (f a) s keep' C write') : D.Updates V (m >>= f) s keep' C write' := by
  refine after_stays hm ?_
  rintro a s' - ⟨rfl, ha⟩
  exact hf a ha

/-- An error of the look is a value the rest decides on. -/
theorem look_reify {g : Except ε α → Prog σ ε β} {B : ε → Prop}
    (hm : Ends V m s (fun a s' => s' = s ∧ Q a) (fun e s' => D.same s s' ∧ B e)
      fun s' => D.same s s' ∧ V .crash) (hok : ∀ a, Q a → D.Updates V (g (.ok a)) s keep' C write')
    (herr : ∀ e s', D.same s s' → B e → D.Updates V (g (.error e)) s' keep' C write') :
    D.Updates V (m.reify >>= g) s keep' C write' := by
  refine .bind (P := fun (out : Outcome ε (Except ε α)) s' => match out with
    | .ok (.ok a) => s' = s ∧ Q a
    | .ok (.error e) => D.same s s' ∧ B e
    | .error _ => False
    | .crashed => D.same s s' ∧ V .crash) (.reify hm (fun _ _ h => h) (fun _ _ h => h) fun _ h => h)
    ?_ (fun _ _ h => h.elim) fun s' h => .inl h
  intro r t ht
  cases r with
  | ok a =>
    obtain ⟨rfl, ha⟩ := ht
    exact hok a ha
  | error e =>
    refine .mono (herr e t ht.1 ht.2) fun out u => ?_
    rintro (⟨htu, hout⟩ | hwritten)
    · exact .inl ⟨D.same_trans _ _ _ ht.1 htu, hout⟩
    · exact .inr hwritten

theorem mono {keep'' : α → Prop} {write'' : α → σ → Prop} {C' : Prop}
    (h : D.Updates V m s keep C write) (hk : ∀ a, keep a → keep'' a) (hc : C → C')
    (hw : ∀ a s', write a s' → write'' a s') : D.Updates V m s keep'' C' write'' := by
  refine Sat.mono h fun out s' => ?_
  rintro (⟨hs, hout⟩ | ⟨a, ha, hout⟩)
  · cases out with
    | ok a => exact .inl ⟨hs, hk a hout⟩
    | error e => exact .inl ⟨hs, hout.1, hout.2.imp_right hc⟩
    | crashed => exact .inl ⟨hs, hout⟩
  · exact .inr ⟨a, hw a s' ha, hout⟩

/-- Steps from where the change is in place. -/
theorem settled (h : Ends V m s write (fun e t => D.after e ∧ V .fail ∧ ∃ b, write b t)
    fun t => V .crash ∧ ∃ b, write b t) :
    Sat V m s fun out t => ∃ a, write a t ∧ match out with
      | .ok b => b = a
      | .error e => D.after e ∧ V .fail
      | .crashed => V .crash := by
  refine Sat.mono h fun out t ht => ?_
  cases out with
  | ok b => exact ⟨b, ht, rfl⟩
  | error e =>
    obtain ⟨hafter, hv, b, hb⟩ := ht
    exact ⟨b, hb, hafter, hv⟩
  | crashed =>
    obtain ⟨hv, b, hb⟩ := ht
    exact ⟨b, hb, hv⟩

theorem of_settled (h : Ends V m s write (fun e t => D.after e ∧ V .fail ∧ ∃ b, write b t)
    fun t => V .crash ∧ ∃ b, write b t) : D.Updates V m s keep C write :=
  Sat.mono (settled h) fun _ _ => .inr

/-- The change, then steps that no longer undo it. A fault in the change itself may leave less
than the whole operation would. -/
theorem settle (h : D.Updates V m s (fun _ => False) C write)
    (hw : V .fail ∨ V .crash → ∀ a s', write a s' → ∃ b, write' b s')
    (hf : ∀ a s', write a s' → Ends V (f a) s' write' (fun e t => D.after e ∧ V .fail ∧ ∃ b, write' b t)
      fun t => V .crash ∧ ∃ b, write' b t) : D.Updates V (m >>= f) s keep' C write' := by
  refine .bind h ?_ ?_ ?_
  · rintro a s' (⟨-, hkeep⟩ | ⟨a', ha, rfl⟩)
    · exact hkeep.elim
    · exact .mono (settled (hf _ s' ha)) fun _ _ => .inr
  · rintro e s' (hbefore | ⟨a, ha, hafter, hv⟩)
    · exact .inl hbefore
    · obtain ⟨b, hb⟩ := hw (.inl hv) a s' ha
      exact .inr ⟨b, hb, hafter, hv⟩
  · rintro s' (hbefore | ⟨a, ha, hv⟩)
    · exact .inl hbefore
    · obtain ⟨b, hb⟩ := hw (.inr hv) a s' ha
      exact .inr ⟨b, hb, hv⟩

/-- The change is the operation's last step before its reply. -/
theorem replying {b : β} (h : D.Updates V m s (fun _ => False) C write) :
    D.Updates V (m >>= fun _ => Pure.pure b) s keep' C fun c s' => c = b ∧ ∃ a, write a s' :=
  settle h (fun _ a _ ha => ⟨b, rfl, a, ha⟩) fun a _ ha => .pure ⟨rfl, a, ha⟩

/-- Without faults and without a reason to refuse, the operation succeeds. -/
theorem succeeds (h : D.Updates Proceeds m s keep C write) (hc : ¬ C) :
    Ends Proceeds m s (fun a s' => (D.same s s' ∧ keep a) ∨ write a s') (fun _ _ => False)
      fun _ => False := by
  refine Sat.mono h fun out s' => ?_
  rintro (⟨hs, hout⟩ | ⟨a, ha, hout⟩)
  · cases out with
    | ok a => exact .inl ⟨hs, hout⟩
    | error e => exact hout.2.elim proceeds_fail hc
    | crashed => exact proceeds_crash hout
  · cases out with
    | ok b => exact .inr (hout ▸ ha)
    | error e => exact proceeds_fail hout.2
    | crashed => exact proceeds_crash hout

end Updates

end Discipline

end Unica.Lib
