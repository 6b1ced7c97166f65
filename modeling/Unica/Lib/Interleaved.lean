import Mathlib.Tactic.Common

/-!
# Processes that share a state

A routine makes calls on a shared state, one after another, and goes on from each answer. Any
number of processes run their routines at the same time: a schedule says whose call is next, and
may start a process or stop one between two of its calls. `Holds` is the specification of one
routine among the others. What the others may do meanwhile is a relation it relies on; what each
of its own calls does is a fact it gives. Where every call that gives its fact stays within what
the other processes rely on, the routines can be specified one at a time.
-/

namespace Unica.Lib

open List

inductive Routine (Op : Type) (Answer : Op → Type) (α : Type) where
  | done (value : α)
  | call (op : Op) (next : Answer op → Routine Op Answer α)

namespace Routine

variable {Op : Type} {Answer : Op → Type} {α β : Type}

def andThen (f : α → Routine Op Answer β) : Routine Op Answer α → Routine Op Answer β
  | done value => f value
  | call op next => call op fun answer => andThen f (next answer)

instance : Monad (Routine Op Answer) where
  pure := done
  bind m f := andThen f m

/-- Make one call. -/
def ask (op : Op) : Routine Op Answer (Answer op) := call op done

def each (f : β → Routine Op Answer Unit) : List β → Routine Op Answer Unit
  | [] => pure ()
  | x :: rest => do
    f x
    each f rest

end Routine

/-- What a call does to the state and answers, and what the end of a process does. -/
structure SharedState (Op : Type) (Answer : Op → Type) (Choice σ : Type) where
  act : Nat → (op : Op) → Choice → σ → Answer op × σ
  leave : Nat → σ → σ

/-- What processes rely on and give. -/
structure Pact {Op : Type} {Answer : Op → Type} {Choice σ : Type}
    (system : SharedState Op Answer Choice σ) (Role : Type) where
  inv : σ → Prop
  /-- What the others may do while a process waits. -/
  rely : Nat → σ → σ → Prop
  /-- What holds where a process of a role makes a call. -/
  gives : Role → Nat → Op → σ → Prop
  refl : ∀ pid s, rely pid s s
  trans : ∀ pid s t u, rely pid s t → rely pid t u → rely pid s u
  keeps : ∀ role pid op choice s, inv s → gives role pid op s → inv (system.act pid op choice s).2 ∧
      ∀ other, other ≠ pid → rely other s (system.act pid op choice s).2
  leaves : ∀ pid s, inv s →
    inv (system.leave pid s) ∧ ∀ other, other ≠ pid → rely other s (system.leave pid s)

section Holds

variable {Op : Type} {Answer : Op → Type} {Choice σ Role α β : Type}
  {system : SharedState Op Answer Choice σ}

/-- What holds in a state still holds after what the others may do. -/
def Pact.Stable (pact : Pact system Role) (pid : Nat) (P : σ → Prop) : Prop :=
  ∀ s s', pact.inv s → pact.inv s' → pact.rely pid s s' → P s → P s'

namespace Pact.Stable

variable {pact : Pact system Role} {pid : Nat} {P Q : σ → Prop}

theorem const {p : Prop} : pact.Stable pid fun _ => p := fun _ _ _ _ _ hp => hp

theorem and (hP : pact.Stable pid P) (hQ : pact.Stable pid Q) :
    pact.Stable pid fun s => P s ∧ Q s := fun s s' hs hs' hrely h =>
  ⟨hP s s' hs hs' hrely h.1, hQ s s' hs hs' hrely h.2⟩

theorem imp {p : Prop} (hP : p → pact.Stable pid P) : pact.Stable pid fun s => p → P s :=
  fun s s' hs hs' hrely h hp => hP hp s s' hs hs' hrely (h hp)

theorem all {ι : Type} {p : ι → Prop} {P : ι → σ → Prop} (hP : ∀ i, pact.Stable pid (P i)) :
    pact.Stable pid fun s => ∀ i, p i → P i s :=
  fun s s' hs hs' hrely h i hi => hP i s s' hs hs' hrely (h i hi)

end Pact.Stable

/-- The routine, from this state on and whatever the others do, gives what its role gives at
each of its calls and ends in `post`. -/
def Holds (pact : Pact system Role) (role : Role) (pid : Nat) (post : α → σ → Prop) :
    Routine Op Answer α → σ → Prop
  | .done value, s => ∀ s', pact.rely pid s s' → pact.inv s' → post value s'
  | .call op next, s => ∀ s', pact.rely pid s s' → pact.inv s' →
      pact.gives role pid op s' ∧ ∀ choice,
        Holds pact role pid post (next (system.act pid op choice s').1)
          (system.act pid op choice s').2

namespace Holds

variable {pact : Pact system Role} {role : Role} {pid : Nat} {post : α → σ → Prop}
  {m : Routine Op Answer α} {s s' : σ}

/-- What others do in between changes nothing. -/
theorem later (h : Holds pact role pid post m s) (hrely : pact.rely pid s s') :
    Holds pact role pid post m s' := by
  cases m with
  | done | call => exact fun t ht => h t (pact.trans _ _ _ _ hrely ht)

end Holds

/-- The fact holds now and after whatever the others do. -/
def Pact.Lasts (pact : Pact system Role) (pid : Nat) (P : σ → Prop) (s : σ) : Prop :=
  ∀ s', pact.rely pid s s' → pact.inv s' → P s'

/-- The routine holds from wherever a fact lasts. -/
def Ensures (pact : Pact system Role) (role : Role) (pid : Nat) (P : σ → Prop)
    (m : Routine Op Answer α) (post : α → σ → Prop) : Prop :=
  ∀ s, pact.inv s → pact.Lasts pid P s → Holds pact role pid post m s

namespace Ensures

variable {pact : Pact system Role} {role : Role} {pid : Nat} {P P' : σ → Prop}
  {post : α → σ → Prop} {m : Routine Op Answer α}

theorem pre (h : Ensures pact role pid P m post) (hP : ∀ s, P' s → P s) : Ensures pact role pid P' m post :=
  fun s hinv hs => h s hinv fun t ht hinv' => hP t (hs t ht hinv')

/-- A fact that is not about the state. -/
theorem fact {p : Prop} (hp : ∀ s, P s → p) (h : p → Ensures pact role pid P m post) :
    Ensures pact role pid P m post :=
  fun s hinv hs => h (hp s (hs s (pact.refl pid s) hinv)) s hinv hs

theorem pure {a : α} (h : ∀ s, P s → post a s) :
    Ensures pact role pid P (pure a : Routine Op Answer α) post :=
  fun _ _ hs t ht hinv => h t (hs t ht hinv)

theorem bind {f : α → Routine Op Answer β} {post' : β → σ → Prop}
    (h : Ensures pact role pid P m post) (hf : ∀ a, Ensures pact role pid (post a) (f a) post') :
    Ensures pact role pid P (m >>= f) post' := by
  intro s hinv hs
  have hm := h s hinv hs
  clear h hs
  induction m generalizing s with
  | done value => exact hf value s hinv hm
  | call op next ih =>
    intro t ht hinv'
    obtain ⟨hgives, hnext⟩ := hm t ht hinv'
    refine ⟨hgives, fun choice => ?_⟩
    exact ih _ _ (pact.keeps role pid op choice t hinv' hgives).1 (hnext choice)

/-- The rule of one call. -/
theorem ask {op : Op} {post : Answer op → σ → Prop}
    (hpost : ∀ answer, pact.Stable pid (post answer)) (hgives : ∀ t, P t → pact.gives role pid op t)
    (hact : ∀ t choice, pact.inv t → P t →
      post (system.act pid op choice t).1 (system.act pid op choice t).2) :
    Ensures pact role pid P (Routine.ask op : Routine Op Answer _) post := by
  intro s _ hs t ht hinv
  have hP := hs t ht hinv
  refine ⟨hgives t hP, fun choice => ?_⟩
  have hafter := (pact.keeps role pid op choice t hinv (hgives t hP)).1
  exact fun u hu hinv' => hpost _ _ u hafter hinv' hu (hact t choice hinv hP)

theorem each {f : β → Routine Op Answer Unit} {xs : List β}
    (hf : ∀ x, Ensures pact role pid P (f x) fun _ => P) :
    Ensures pact role pid P (Routine.each f xs) fun _ => P := by
  induction xs with
  | nil => exact pure fun _ h => h
  | cons x rest ih => exact bind (hf x) fun _ => ih

end Ensures

end Holds

/-! ## Runs -/

structure Process (Op : Type) (Answer : Op → Type) (Role : Type) where
  role : Role
  routine : Routine Op Answer Unit

structure Pool (Op : Type) (Answer : Op → Type) (Role σ : Type) where
  shared : σ
  processes : List (Process Op Answer Role)

inductive Event (Choice Role : Type) where
  | start (role : Role)
  | step (pid : Nat) (choice : Choice)
  | stop (pid : Nat)

section Runs

variable {Op : Type} {Answer : Op → Type} {Choice σ Role : Type}
  (system : SharedState Op Answer Choice σ) (routine : Role → Routine Op Answer Unit)

/-- One event; one for a process that is not there or has ended does nothing. -/
def Pool.next (pool : Pool Op Answer Role σ) : Event Choice Role → Pool Op Answer Role σ
  | .start role => { pool with processes := pool.processes ++ [⟨role, routine role⟩] }
  | .step pid choice =>
    match pool.processes[pid]? with
    | some ⟨role, .call op next⟩ =>
      let (answer, shared) := system.act pid op choice pool.shared
      ⟨shared, pool.processes.set pid ⟨role, next answer⟩⟩
    | _ => pool
  | .stop pid =>
    match pool.processes[pid]? with
    | some process =>
      ⟨system.leave pid pool.shared, pool.processes.set pid ⟨process.role, .done ()⟩⟩
    | none => pool

def Pool.run (pool : Pool Op Answer Role σ) (events : List (Event Choice Role)) :
    Pool Op Answer Role σ :=
  events.foldl (Pool.next system routine) pool

variable {system routine}

/-- Every process of the pool is within the pact. -/
structure Pool.Within (pact : Pact system Role) (pool : Pool Op Answer Role σ) : Prop where
  inv : pact.inv pool.shared
  holds : ∀ pid process, pool.processes[pid]? = some process →
    Holds pact process.role pid (fun _ _ => True) process.routine pool.shared

namespace Pool.Within

variable {pact : Pact system Role} {pool : Pool Op Answer Role σ} {process : Process Op Answer Role}

theorem empty {s : σ} (h : pact.inv s) : Within pact (⟨s, []⟩ : Pool Op Answer Role σ) :=
  ⟨h, fun pid process hmem => by simp at hmem⟩

theorem start (h : Within pact pool)
    (hnew : Holds pact process.role pool.processes.length (fun _ _ => True) process.routine
      pool.shared) : Within pact { pool with processes := pool.processes ++ [process] } := by
  refine ⟨h.inv, fun pid found hmem => ?_⟩
  rcases Nat.lt_trichotomy pid pool.processes.length with hlt | heq | hgt
  · rw [getElem?_append_left hlt] at hmem
    exact h.holds pid found hmem
  · rw [heq, getElem?_concat_length] at hmem
    cases hmem
    rw [heq]
    exact hnew
  · rw [getElem?_eq_none (by simp; omega)] at hmem
    cases hmem

/-- A process goes on in a state the others can rely on. -/
theorem replace (h : Within pact pool) {pid : Nat} {s : σ}
    (hinv : pact.inv s) (hothers : ∀ other, other ≠ pid → pact.rely other pool.shared s)
    (hprocess : Holds pact process.role pid (fun _ _ => True) process.routine s) :
    Within pact ⟨s, pool.processes.set pid process⟩ := by
  refine ⟨hinv, fun other found hmem => ?_⟩
  by_cases heq : other = pid
  · rw [heq, getElem?_set_self'] at hmem
    obtain ⟨old, -, hold⟩ := Option.map_eq_some_iff.mp hmem
    cases hold
    rw [heq]
    exact hprocess
  · rw [getElem?_set_ne (Ne.symm heq)] at hmem
    exact (h.holds other found hmem).later (hothers other heq)

theorem next (hroutines : ∀ role pid,
      Ensures pact role pid (fun _ => True) (routine role) fun _ _ => True) (h : Within pact pool)
    (event : Event Choice Role) : Within pact (pool.next system routine event) := by
  cases event with
  | start role => exact h.start (hroutines role _ _ h.inv fun _ _ _ => trivial)
  | step pid choice =>
    unfold Pool.next
    dsimp only
    split
    · rename_i role op next hmem
      obtain ⟨hgives, hnext⟩ := h.holds pid _ hmem pool.shared (pact.refl _ _) h.inv
      obtain ⟨hinv, hothers⟩ := pact.keeps role pid op choice pool.shared h.inv hgives
      exact h.replace hinv hothers (hnext choice)
    · exact h
  | stop pid =>
    unfold Pool.next
    dsimp only
    split
    · rename_i process hmem
      obtain ⟨hinv, hothers⟩ := pact.leaves pid pool.shared h.inv
      exact h.replace hinv hothers fun _ _ _ => trivial
    · exact h

theorem run (hroutines : ∀ role pid,
      Ensures pact role pid (fun _ => True) (routine role) fun _ _ => True) (h : Within pact pool)
    (events : List (Event Choice Role)) : Within pact (pool.run system routine events) := by
  induction events generalizing pool with
  | nil => exact h
  | cons event rest ih => exact ih (h.next hroutines event)

/-- What lasts for every process lasts along a run. -/
theorem stays_next {P : σ → Prop} (hP : ∀ pid, pact.Stable pid P) (h : Within pact pool)
    (hs : P pool.shared) (event : Event Choice Role) : P (pool.next system routine event).shared := by
  cases event with
  | start role => exact hs
  | step pid choice =>
    unfold Pool.next
    dsimp only
    split
    · rename_i role op next hmem
      obtain ⟨hgives, -⟩ := h.holds pid _ hmem pool.shared (pact.refl _ _) h.inv
      obtain ⟨hinv, hothers⟩ := pact.keeps role pid op choice pool.shared h.inv hgives
      exact hP (pid + 1) _ _ h.inv hinv (hothers _ (Nat.succ_ne_self pid)) hs
    · exact hs
  | stop pid =>
    unfold Pool.next
    dsimp only
    split
    · obtain ⟨hinv, hothers⟩ := pact.leaves pid pool.shared h.inv
      exact hP (pid + 1) _ _ h.inv hinv (hothers _ (Nat.succ_ne_self pid)) hs
    · exact hs

theorem stays {P : σ → Prop} (hP : ∀ pid, pact.Stable pid P) (hroutines : ∀ role pid,
      Ensures pact role pid (fun _ => True) (routine role) fun _ _ => True)
    (h : Within pact pool) (hs : P pool.shared) (events : List (Event Choice Role)) :
    P (pool.run system routine events).shared := by
  induction events generalizing pool with
  | nil => exact hs
  | cons event rest ih => exact ih (h.next hroutines event) (h.stays_next hP hs event)

/-- A call about to be made gives what its role gives. -/
theorem gives (h : Within pact pool) {pid : Nat} {role : Role} {op : Op}
    {next : Answer op → Routine Op Answer Unit}
    (hmem : pool.processes[pid]? = some ⟨role, .call op next⟩) : pact.gives role pid op pool.shared :=
  (h.holds pid _ hmem pool.shared (pact.refl _ _) h.inv).1

end Pool.Within

end Runs

end Unica.Lib
