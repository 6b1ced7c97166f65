import Unica.WorkControl.SharedWork

/-!
# Runs of the single-flight registry

A running entry is the registered one of its key and has exactly one thread that will end
its run. The ownership count is the number of threads that hold or will return a lease. A
finished entry without leases that is still registered has a thread on its way to remove it.
-/

namespace Unica.WorkControl

open Lib SharedWorkEntry Option Table Pc Finmap

variable {κ ρ ε : Type}

namespace Pc

/-- The thread holds a lease of this entry or will return one. -/
@[simp] def owns (entry : Nat) : Pc ρ ε → Bool
  | spawning e | leased e | finishing e _ true | retiring e _ true => e = entry
  | _ => false

/-- The thread will end the run of this entry. -/
@[simp] def runs (entry : Nat) : Pc ρ ε → Bool
  | spawning e | producing e | finishing e _ _ => e = entry
  | _ => false

/-- The thread has seen the entry finished. -/
@[grind] def sawTerminal : Pc ρ ε → Bool
  | retiring _ (.readOwners true) _ | retiring _ .lockRegistry _ | retiring _ .recheck _
  | retiring _ (.remove _) _ => true
  | _ => false

/-- The thread will remove the entry if it finds it unowned, or is about to own it. -/
def pending : Pc ρ ε → Bool
  | attaching _ | cancelling _ | retiring _ .readTerminal _ | retiring _ (.readOwners true) _
  | retiring _ .lockRegistry _ | retiring _ .recheck _ | retiring _ (.remove true) _ => true
  | _ => false

end Pc

variable {threads : Table Nat (Pc ρ ε)} {thread : Nat} {pc : Pc ρ ε}
variable {entry : Nat} {value : SharedWorkEntry κ ρ ε} {starter : Bool}

/-- Some thread is on its way to remove the entry or to own it. -/
def HasPending (threads : Table Nat (Pc ρ ε)) (entry : Nat) : Prop :=
  ∃ thread pc, threads.lookup thread = some pc ∧ pc.entry = entry ∧ pc.pending = true

theorem HasPending.set (h : HasPending threads entry) (o : Option (Pc ρ ε))
    (hthread : ∀ q, threads.lookup thread = some q → q.entry = entry → q.pending = false) :
    HasPending (Table.set threads thread o) entry := by
  obtain ⟨t, q, ht, hentry, hpending⟩ := h
  have hne : t ≠ thread := by
    rintro rfl
    rw [hthread q ht hentry] at hpending
    cases hpending
  exact ⟨t, q, by rw [lookup_set, if_neg hne, ht], hentry, hpending⟩

theorem HasPending.set_of_none (h : HasPending threads entry) (hthread : threads.lookup thread = none)
    (o : Option (Pc ρ ε)) : HasPending (Table.set threads thread o) entry := by
  refine h.set o fun q hq => ?_
  rw [hthread] at hq
  cases hq

/-- A step of one thread that leaves the registry and its lock alone: the position and the entry
before and after it. -/
inductive Local : Pc ρ ε → SharedWorkEntry κ ρ ε → Option (Pc ρ ε) → SharedWorkEntry κ ρ ε → Prop where
  | spawnFails {e : Nat} {v : SharedWorkEntry κ ρ ε} {outcome : Except (SharedWorkError ε) ρ} :
      Local (.spawning e) v (some (.finishing e outcome true)) v
  | returns {e : Nat} {v : SharedWorkEntry κ ρ ε} {outcome : Except (SharedWorkError ε) ρ} :
      Local (.producing e) v (some (.finishing e outcome false)) v
  | drop {e : Nat} {v v' : SharedWorkEntry κ ρ ε} {pc' : Pc ρ ε}
      (hpc' : pc' = .cancelling e ∨ pc' = .retiring e .readTerminal false) (hkey : v'.key = v.key)
      (howners : v'.owners = v.owners - 1) (hstate : v'.state = v.state) : Local (.leased e) v (some pc') v'
  | finish {e : Nat} {v : SharedWorkEntry κ ρ ε} {outcome : Except (SharedWorkError ε) ρ} {starter : Bool} :
      Local (.finishing e outcome starter) v (some (.retiring e .readTerminal starter))
        { v with state := .finished outcome }
  | cancel {e : Nat} {v : SharedWorkEntry κ ρ ε} :
      Local (.cancelling e) v (some (.retiring e .readTerminal false)) { v with cancelled := true }
  | readTerminal {e : Nat} {v : SharedWorkEntry κ ρ ε} {starter : Bool} :
      Local (.retiring e .readTerminal starter) v
        (some (.retiring e (.readOwners v.state.isFinished) starter)) v
  | unowned {e : Nat} {v : SharedWorkEntry κ ρ ε} {starter : Bool} (howners : v.owners = 0) :
      Local (.retiring e (.readOwners true) starter) v (some (.retiring e .lockRegistry starter)) v
  | owned {e : Nat} {v : SharedWorkEntry κ ρ ε} {terminal starter : Bool}
      (howners : terminal = true → v.owners ≠ 0) :
      Local (.retiring e (.readOwners terminal) starter) v (System.afterRetirement e starter) v
  | recheck {e : Nat} {v : SharedWorkEntry κ ρ ε} {starter : Bool} :
      Local (.retiring e .recheck starter) v (some (.retiring e (.remove (v.owners = 0)) starter)) v

namespace Local

variable {value value' : SharedWorkEntry κ ρ ε} {pc' : Option (Pc ρ ε)}

section

variable (h : Local pc value pc' value')
include h

theorem entry_eq : ∀ q, pc' = some q → q.entry = pc.entry := by
  cases h with
  | drop hpc' =>
    rintro q ⟨⟩
    rcases hpc' with rfl | rfl <;> rfl
  | @owned _ _ _ starter =>
    rintro q hq
    cases starter <;> cases hq
    rfl
  | _ => rintro q ⟨⟩; rfl

theorem key_eq : value'.key = value.key := by
  cases h with
  | drop _ hkey => exact hkey
  | _ => rfl

theorem holdsLock_eq : pc'.any holdsLock = pc.holdsLock := by
  cases h with
  | drop hpc' => rcases hpc' with rfl | rfl <;> rfl
  | @owned _ _ _ starter => cases starter <;> rfl
  | _ => rfl

/-- The ownership count follows the threads that own the entry. -/
theorem owners_eq (hpos : pc.owns pc.entry = true → 0 < value.owners) :
    value'.owners + (pc.owns pc.entry).toNat = value.owners + (pc'.any (owns pc.entry)).toNat := by
  cases h with
  | drop hpc' _ howners =>
    have hpos : 0 < value.owners := hpos (by simp)
    rcases hpc' with rfl | rfl <;> simp <;> omega
  | @owned _ _ _ starter | @finish _ _ _ starter | @readTerminal _ _ starter
  | @unowned _ _ starter | @recheck _ _ starter => cases starter <;> simp
  | _ => simp

theorem owners_le : value'.owners ≤ value.owners := by
  cases h with
  | drop _ _ howners => omega
  | _ => exact le_rfl

/-- The state follows the threads that will end the run. -/
theorem runs_eq (hrunning : pc.runs pc.entry = true → value.state.isFinished = false) :
    (pc'.any (Pc.runs pc.entry)).toNat + (!value.state.isFinished).toNat
      = (pc.runs pc.entry).toNat + (!value'.state.isFinished).toNat := by
  cases h with
  | drop hpc' _ _ hstate => rcases hpc' with rfl | rfl <;> simp [hstate]
  | @owned _ _ _ starter => cases starter <;> simp
  | finish =>
    simp [hrunning]
  | _ => simp

/-- An outcome stays. -/
theorem state_eq (hrunning : pc.runs pc.entry = true → value.state.isFinished = false)
    (hfinished : value.state.isFinished = true) : value'.state = value.state := by
  cases h with
  | drop _ _ _ hstate => exact hstate
  | finish =>
    simp [hrunning] at hfinished
  | _ => rfl

theorem sawTerminal (hpc' : pc'.any sawTerminal = true)
    (hsaw : pc.sawTerminal = true → value.state.isFinished = true) : value'.state.isFinished = true := by
  cases h with
  | readTerminal =>
    cases hfinished : value.state.isFinished with
    | true => rfl
    | false => simp [hfinished, sawTerminal] at hpc'
  | unowned | recheck => exact hsaw rfl
  | drop hcases => rcases hcases with rfl | rfl <;> cases hpc'
  | @owned _ _ _ starter => cases starter <;> cases hpc'
  | _ => cases hpc'

theorem removing (hpc' : pc' = some (.retiring entry (.remove true) starter)) : value'.owners = 0 := by
  cases h with
  | recheck =>
    simp only [some.injEq, retiring.injEq, RetireStep.remove.injEq, decide_eq_true_eq] at hpc'
    exact hpc'.2.1
  | drop hcases => rcases hcases with rfl | rfl <;> cases hpc'
  | @owned _ _ _ starter => cases starter <;> cases hpc'
  | _ => cases hpc'

/-- A thread that makes the entry finished and unowned, or was to remove it, is on its way. -/
theorem pending (hfinished : value'.state.isFinished = true) (howners : value'.owners = 0)
    (hwas : value.state.isFinished = false ∨ value.owners ≠ 0 ∨ pc.pending = true) :
    ∃ q, pc' = some q ∧ q.pending = true := by
  cases h with
  | drop hpc' => rcases hpc' with rfl | rfl <;> exact ⟨_, rfl, rfl⟩
  | readTerminal => exact ⟨_, rfl, by rw [hfinished]; rfl⟩
  | recheck => exact ⟨_, rfl, by simp [howners, pending]⟩
  | @owned _ _ terminal =>
    cases terminal with
    | true => grind
    | false => simp [pending, hfinished, howners] at hwas
  | spawnFails | returns => simp [pending, hfinished, howners] at hwas
  | _ => exact ⟨_, rfl, rfl⟩

end

end Local

theorem Pc.owns_of_ne (h : pc.entry ≠ entry) : pc.owns entry = false := by
  cases pc with
  | attaching | producing | cancelling => rfl
  | spawning e | leased e => exact decide_eq_false h
  | finishing e outcome starter | retiring e step starter =>
    cases starter with
    | true => exact decide_eq_false h
    | false => rfl

theorem Pc.runs_of_ne (h : pc.entry ≠ entry) : pc.runs entry = false := by
  cases pc with
  | spawning e | producing e | finishing e outcome starter => exact decide_eq_false h
  | attaching | leased | cancelling | retiring => rfl

theorem any_of_ne {p : Nat → Pc ρ ε → Bool} {o : Option (Pc ρ ε)}
    (hp : ∀ q, q.entry ≠ entry → p entry q = false) (ho : ∀ q, o = some q → q.entry ≠ entry) :
    o.any (p entry) = false := by
  cases o with
  | none => rfl
  | some q => exact hp q (ho q rfl)

namespace System

variable [DecidableEq κ] {lifetime : SharedWorkLifetime} {s s' : System κ ρ ε} {pc' : Option (Pc ρ ε)}
  {value' : SharedWorkEntry κ ρ ε} {key : κ} {retireStep : RetireStep}

/-- What one step can do, with what it found. -/
inductive Steps (s : System κ ρ ε) : System κ ρ ε → Prop where
  | attach {thread entry : Nat} {key : κ} (hthread : s.threads.lookup thread = none) (hlock : s.lock = none)
      (hentry : s.registry.lookup key = some entry) (halive : s.alive entry = true) :
      Steps s { s with
        registry := Table.retain (fun _ entry => s.alive entry) s.registry
        threads := Table.set s.threads thread (some (.attaching entry))
        lock := some thread }
  | start {thread : Nat} {key : κ} (hthread : s.threads.lookup thread = none) (hlock : s.lock = none)
      (hentry : ∀ entry, s.registry.lookup key = some entry → s.alive entry = false) :
      Steps s { s with
        registry := (Table.retain (fun _ entry => s.alive entry) s.registry).insert key s.next
        heap := s.heap.insert s.next (.new key)
        threads := Table.set s.threads thread (some (.spawning s.next))
        next := s.next + 1 }
  | spawn {thread producer entry : Nat} (hthread : s.threads.lookup thread = some (.spawning entry))
      (hproducer : s.threads.lookup producer = none) :
      Steps s { s with
        threads := Table.set (Table.set s.threads producer (some (.producing entry))) thread
          (some (.leased entry)) }
  | local {thread : Nat} {pc : Pc ρ ε} {pc' : Option (Pc ρ ε)} {value value' : SharedWorkEntry κ ρ ε}
      (hthread : s.threads.lookup thread = some pc) (hvalue : s.heap.lookup pc.entry = some value)
      (hlocal : Local pc value pc' value') :
      Steps s { s with
        heap := s.heap.insert pc.entry value'
        threads := Table.set s.threads thread pc' }
  | attached {thread entry : Nat} {value : SharedWorkEntry κ ρ ε}
      (hthread : s.threads.lookup thread = some (.attaching entry)) (hvalue : s.heap.lookup entry = some value) :
      Steps s { s with
        heap := s.heap.insert entry { value with owners := value.owners + 1 }
        threads := Table.set s.threads thread (some (.leased entry))
        lock := none }
  | locks {thread entry : Nat} {starter : Bool} {value : SharedWorkEntry κ ρ ε}
      (hthread : s.threads.lookup thread = some (.retiring entry .lockRegistry starter))
      (hvalue : s.heap.lookup entry = some value) (hlock : s.lock = none)
      (hcurrent : s.registry.lookup value.key = some entry) :
      Steps s { s with
        threads := Table.set s.threads thread (some (.retiring entry .recheck starter))
        lock := some thread }
  | stale {thread entry : Nat} {starter : Bool} {value : SharedWorkEntry κ ρ ε}
      (hthread : s.threads.lookup thread = some (.retiring entry .lockRegistry starter))
      (hvalue : s.heap.lookup entry = some value) (hlock : s.lock = none)
      (hcurrent : s.registry.lookup value.key ≠ some entry) :
      Steps s { s with threads := Table.set s.threads thread (afterRetirement entry starter) }
  | removes {thread entry : Nat} {unowned starter : Bool} {value : SharedWorkEntry κ ρ ε}
      (hthread : s.threads.lookup thread = some (.retiring entry (.remove unowned) starter))
      (hvalue : s.heap.lookup entry = some value) :
      Steps s { s with
        registry := if unowned then s.registry.erase value.key else s.registry
        threads := Table.set s.threads thread (afterRetirement entry starter)
        lock := none }

omit [DecidableEq κ] in
theorem put_self (h : s.heap.lookup entry = some value) : s.put entry value = s := by
  have hheap : s.heap.insert entry value = s.heap := by
    refine ext_lookup fun x => ?_
    rw [lookup_insert_ite]
    split
    · rename_i heq
      rw [heq, h]
    · rfl
  simp only [put, hheap]

/-- A local step, with the entry written back. -/
theorem Steps.goto
    (hthread : s.threads.lookup thread = some pc) (hvalue : s.heap.lookup pc.entry = some value)
    (hlocal : Local pc value pc' value') : Steps s ((s.put pc.entry value').goto thread pc') :=
  .local hthread hvalue hlocal

theorem Steps.goto_self
    (hthread : s.threads.lookup thread = some pc) (hvalue : s.heap.lookup pc.entry = some value)
    (hlocal : Local pc value pc' value) : Steps s (s.goto thread pc') := by
  have hstep := goto hthread hvalue hlocal
  rwa [put_self hvalue] at hstep

theorem steps_retire (hthread : s.threads.lookup thread = some (.retiring entry retireStep starter))
    (hvalue : s.heap.lookup entry = some value)
    (h : s.retire thread entry value starter retireStep = some s') : Steps s s' := by
  cases retireStep with
  | readTerminal =>
    cases h
    exact .goto_self hthread hvalue .readTerminal
  | readOwners terminal =>
    simp only [retire] at h
    split at h
    · rename_i hboth
      cases h
      obtain ⟨rfl, howners⟩ := hboth
      exact .goto_self hthread hvalue (.unowned howners)
    · rename_i hboth
      cases h
      exact .goto_self hthread hvalue (.owned fun hterminal howners => hboth ⟨hterminal, howners⟩)
  | lockRegistry =>
    simp only [retire] at h
    split at h
    · cases h
    · rename_i hlock
      rw [not_not] at hlock
      split at h
      · cases h
        exact .locks hthread hvalue hlock ‹_›
      · cases h
        exact .stale hthread hvalue hlock ‹_›
  | recheck =>
    cases h
    exact .goto_self hthread hvalue .recheck
  | remove unowned =>
    cases h
    exact .removes hthread hvalue

theorem steps_advance
    (hthread : s.threads.lookup thread = some pc) (hvalue : s.heap.lookup pc.entry = some value)
    (h : s.advance thread value pc = some s') : Steps s s' := by
  cases pc with
  | attaching entry =>
    cases h
    exact .attached hthread hvalue
  | finishing entry outcome starter =>
    cases h
    exact .goto hthread hvalue .finish
  | cancelling entry =>
    cases h
    exact .goto hthread hvalue .cancel
  | retiring entry retireStep starter => exact steps_retire hthread hvalue h
  | spawning | leased | producing => cases h

theorem steps_joinOrStart (hthread : s.threads.lookup thread = none)
    (hlock : s.lock = none) : Steps s (s.joinOrStart thread key) := by
  unfold joinOrStart
  dsimp only
  split
  · rename_i entry hentry
    obtain ⟨hentry, halive⟩ := lookup_retain.mp hentry
    exact .attach hthread hlock hentry halive
  · rename_i hentry
    refine .start hthread hlock fun entry hregistered => ?_
    by_contra halive
    rw [Bool.not_eq_false] at halive
    rw [lookup_retain.mpr ⟨hregistered, halive⟩] at hentry
    cases hentry

/-- Every thread's entry is on the heap. -/
def Known (s : System κ ρ ε) : Prop :=
  ∀ {thread pc}, s.threads.lookup thread = some pc → (s.heap.lookup pc.entry).isSome = true

theorem steps_of_step (hknown : s.Known) {move : Move κ ρ ε} (h : s.step lifetime move = some s') : Steps s s' := by
  cases move with (simp only [step] at h; split at h <;> try cases h)
  | joinOrStart thread key =>
    rename_i hfree
    simp only [not_or, ne_eq, not_not] at hfree
    exact steps_joinOrStart hfree.1 hfree.2
  | spawn thread producer =>
    rename_i hthread
    obtain ⟨hproducer, h⟩ := ite_none_left_eq_some.mp h
    rw [not_not] at hproducer
    cases h
    exact .spawn hthread hproducer
  | spawnFails thread =>
    rename_i hthread
    obtain ⟨value, hvalue⟩ := isSome_iff_exists.mp (hknown hthread)
    exact .goto_self hthread hvalue .spawnFails
  | returns | panics =>
    rename_i hthread
    obtain ⟨value, hvalue⟩ := isSome_iff_exists.mp (hknown hthread)
    exact .goto_self hthread hvalue .returns
  | drop thread =>
    rename_i entry hthread
    obtain ⟨value, hvalue, rfl⟩ := map_eq_some_iff.mp h
    unfold dropLease
    dsimp only
    split
    · exact .goto hthread hvalue (.drop (.inl rfl) rfl rfl rfl)
    · exact .goto hthread hvalue (.drop (.inr rfl) rfl rfl rfl)
  | advance thread =>
    rename_i pc hthread
    obtain ⟨value, hvalue, hadvance⟩ := bind_eq_some_iff.mp h
    exact steps_advance hthread hvalue hadvance

/-! ## The invariant -/

/-- How the registry, the heap and the threads agree. -/
structure Coherent (s : System κ ρ ε) : Prop where
  lock_iff : ∀ {thread}, s.lock = some thread ↔ (s.threads.lookup thread).any Pc.holdsLock = true
  known : s.Known
  registered : ∀ {key entry}, s.registry.lookup key = some entry → (s.heap.lookup entry).map (·.key) = some key
  allocated : ∀ {entry value}, s.heap.lookup entry = some value → entry < s.next
  owners : ∀ {entry value}, s.heap.lookup entry = some value → value.owners = Table.count (Pc.owns entry) s.threads
  runs : ∀ {entry value}, s.heap.lookup entry = some value →
    Table.count (Pc.runs entry) s.threads = (!value.state.isFinished).toNat
  running : ∀ {entry value}, s.heap.lookup entry = some value → value.state.isFinished = false →
    s.registry.lookup value.key = some entry
  /-- While a thread has the registry locked for its entry, the entry is the registered one. -/
  locked : ∀ {thread pc value}, s.threads.lookup thread = some pc → pc.holdsLock = true →
    s.heap.lookup pc.entry = some value → s.registry.lookup value.key = some pc.entry
  sawTerminal : ∀ {thread pc value}, s.threads.lookup thread = some pc → pc.sawTerminal = true →
    s.heap.lookup pc.entry = some value → value.state.isFinished = true
  removing : ∀ {thread entry starter value},
    s.threads.lookup thread = some (.retiring entry (.remove true) starter) →
    s.heap.lookup entry = some value → value.owners = 0
  pending : ∀ {key entry value}, s.registry.lookup key = some entry → s.heap.lookup entry = some value →
    value.state.isFinished = true → value.owners = 0 → HasPending s.threads entry

attribute [grind →] Coherent.registered Coherent.allocated Coherent.running Coherent.locked
  Coherent.sawTerminal Coherent.removing

attribute [grind =] Coherent.lock_iff

theorem coherent_start : Coherent ({} : System κ ρ ε) := by
  constructor <;> simp [Known]

namespace Coherent

section

variable (hs : Coherent s)
include hs

theorem not_finished (hthread : s.threads.lookup thread = some pc)
    (hvalue : s.heap.lookup pc.entry = some value) (hruns : pc.runs pc.entry = true) : value.state.isFinished = false := by
  have hpos := count_pos hthread hruns
  rw [hs.runs hvalue] at hpos
  cases hfinished : value.state.isFinished with
  | false => rfl
  | true => simp [hfinished] at hpos

theorem unlocked (hlock : s.lock = none) :
    ∀ thread pc, s.threads.lookup thread = some pc → pc.holdsLock = false := by
  intro thread pc hthread
  have hiff := @hs.lock_iff thread
  rw [hlock, hthread] at hiff
  simpa using hiff

theorem next_free : s.heap.lookup s.next = none := by
  cases hvalue : s.heap.lookup s.next with
  | none => rfl
  | some value => exact absurd (hs.allocated hvalue) (lt_irrefl _)

theorem entry_lt (hthread : s.threads.lookup thread = some pc) : pc.entry < s.next := by
  obtain ⟨value, hvalue⟩ := isSome_iff_exists.mp (hs.known hthread)
  exact hs.allocated hvalue

/-- No thread stands at an entry that is not made yet. -/
theorem count_fresh (p : Nat → Pc ρ ε → Bool)
    (hp : ∀ q, q.entry ≠ s.next → p s.next q = false) : count (p s.next) s.threads = 0 := by
  by_contra hne
  obtain ⟨thread, pc, hthread, hpc⟩ := exists_of_count_pos (Nat.pos_of_ne_zero hne)
  rw [hp pc (hs.entry_lt hthread).ne] at hpc
  cases hpc

end

end Coherent

theorem Coherent.local
    (hs : Coherent s) (hthread : s.threads.lookup thread = some pc) (hvalue : s.heap.lookup pc.entry = some value)
    (hlocal : Local pc value pc' value') :
    Coherent { s with
      heap := s.heap.insert pc.entry value'
      threads := Table.set s.threads thread pc' } where
  lock_iff := by
    have hlock := hlocal.holdsLock_eq
    cases pc' <;> grind
  known := by
    have := hlocal.entry_eq
    have := @hs.known
    unfold Known at *
    grind
  registered := by
    have := hlocal.key_eq
    grind
  allocated := by grind
  owners := by
    intro entry v hv
    have hcount := count_set (owns entry) s.threads thread pc'
    rw [hthread, any_some] at hcount
    rcases lookup_insert_cases hv with ⟨rfl, rfl⟩ | ⟨hne, hv⟩
    · have howners := hlocal.owners_eq fun howns => hs.owners hvalue ▸ count_pos hthread howns
      have hbefore := hs.owners hvalue
      dsimp only
      omega
    · have hpc := owns_of_ne (Ne.symm hne)
      have hpc' := any_of_ne (fun q => owns_of_ne) fun q hq =>
        (hlocal.entry_eq q hq).trans_ne (Ne.symm hne)
      rw [hs.owners hv, count_set_of_eq (by rw [hthread, any_some, hpc, hpc'])]
  runs := by
    intro entry v hv
    have hcount := count_set (Pc.runs entry) s.threads thread pc'
    rw [hthread, any_some] at hcount
    rcases lookup_insert_cases hv with ⟨rfl, rfl⟩ | ⟨hne, hv⟩
    · have hruns := hlocal.runs_eq (hs.not_finished hthread hvalue)
      have hbefore := hs.runs hvalue
      dsimp only
      omega
    · have hpc := runs_of_ne (Ne.symm hne)
      have hpc' := any_of_ne (fun q => runs_of_ne) fun q hq =>
        (hlocal.entry_eq q hq).trans_ne (Ne.symm hne)
      rw [← hs.runs hv, count_set_of_eq (by rw [hthread, any_some, hpc, hpc'])]
  running := by
    have hkey := hlocal.key_eq
    have hstate := hlocal.state_eq (hs.not_finished hthread hvalue)
    grind
  locked := by
    have hkey := hlocal.key_eq
    have hlock := hlocal.holdsLock_eq
    have hentry := hlocal.entry_eq
    cases pc' <;> grind
  sawTerminal := by
    have hstate := hlocal.state_eq (hs.not_finished hthread hvalue)
    have hsaw := hlocal.sawTerminal
    have hentry := hlocal.entry_eq
    cases pc' <;> grind
  removing := by
    intro t entry starter v ht hv
    rw [lookup_set] at ht
    split at ht
    · have hentry : entry = pc.entry := hlocal.entry_eq _ ht
      rw [hentry, lookup_insert_ite, if_pos rfl] at hv
      cases hv
      exact hlocal.removing ht
    · rcases lookup_insert_cases hv with ⟨heq, rfl⟩ | ⟨-, hv⟩
      · have hzero := hs.removing ht (heq ▸ hvalue)
        have hle := hlocal.owners_le
        omega
      · exact hs.removing ht hv
  pending := by
    intro key entry v hregistered hv hfinished howners
    rcases lookup_insert_cases hv with ⟨rfl, rfl⟩ | ⟨hne, hv⟩
    · by_cases hwas : value.state.isFinished = false ∨ value.owners ≠ 0 ∨ pc.pending = true
      · obtain ⟨q, hq, hpending⟩ := hlocal.pending hfinished howners hwas
        exact ⟨thread, q, by simp [lookup_set, hq], hlocal.entry_eq q hq, hpending⟩
      · -- The step did nothing to the entry and its thread was not the one on its way.
        simp only [not_or, Bool.not_eq_false, ne_eq, not_not, Bool.not_eq_true] at hwas
        refine (hs.pending hregistered hvalue hwas.1 hwas.2.1).set pc' fun q hq _ => ?_
        rw [hthread] at hq
        cases hq
        exact hwas.2.2
    · refine (hs.pending hregistered hv hfinished howners).set pc' fun q hq hentry => ?_
      rw [hthread] at hq
      cases hq
      exact absurd hentry.symm hne

/-! ### Registered entries are alive -/

omit [DecidableEq κ] in
theorem alive_of_lookup (hthread : s.threads.lookup thread = some pc)
    (hentry : pc.entry = entry) : s.alive entry = true := by
  rw [alive, existsValue_iff]
  exact ⟨thread, pc, hthread, hentry⟩

theorem Coherent.alive (hs : Coherent s) (h : s.registry.lookup key = some entry) :
    s.alive entry = true := by
  obtain ⟨value, hvalue, -⟩ := map_eq_some_iff.mp (hs.registered h)
  cases hfinished : value.state.isFinished with
  | false =>
    have hpos : 0 < count (Pc.runs entry) s.threads := by
      rw [hs.runs hvalue, hfinished]
      exact Nat.one_pos
    obtain ⟨thread, pc, hthread, hpc⟩ := exists_of_count_pos hpos
    refine alive_of_lookup hthread ?_
    by_contra hne
    rw [runs_of_ne hne] at hpc
    cases hpc
  | true =>
    by_cases howners : value.owners = 0
    · obtain ⟨thread, pc, hthread, hentry, -⟩ := hs.pending h hvalue hfinished howners
      exact alive_of_lookup hthread hentry
    · rw [hs.owners hvalue] at howners
      obtain ⟨thread, pc, hthread, hpc⟩ := exists_of_count_pos (Nat.pos_of_ne_zero howners)
      refine alive_of_lookup hthread ?_
      by_contra hne
      rw [owns_of_ne hne] at hpc
      cases hpc

/-- So `join_or_start` finds no dead reference to drop. -/
theorem Coherent.retain_alive (hs : Coherent s) :
    retain (fun _ entry => s.alive entry) s.registry = s.registry := by
  refine ext_lookup fun key => ext fun entry => ?_
  rw [lookup_retain]
  exact ⟨And.left, fun h => ⟨h, hs.alive h⟩⟩

theorem Coherent.attach (hs : Coherent s) (hthread : s.threads.lookup thread = none) (hlock : s.lock = none)
    (hentry : s.registry.lookup key = some entry) :
    Coherent { s with
      threads := Table.set s.threads thread (some (.attaching entry))
      lock := some thread } where
  __ := hs
  lock_iff := by grind [holdsLock]
  known := by
    have := @hs.known
    obtain ⟨value, hvalue, -⟩ := map_eq_some_iff.mp (hs.registered hentry)
    unfold Known at *
    grind
  owners := by
    intro e v hv
    rw [hs.owners hv, count_set_of_eq (by rw [hthread]; rfl)]
  runs := by
    intro e v hv
    rw [← hs.runs hv, count_set_of_eq (by rw [hthread]; rfl)]
  locked := by
    grind
  sawTerminal := by grind
  removing := by grind
  pending := by
    intro key e v hregistered hv hfinished howners
    exact (hs.pending hregistered hv hfinished howners).set_of_none hthread _

theorem Coherent.start (hs : Coherent s) (hthread : s.threads.lookup thread = none)
    (hlock : s.lock = none) (hkey : s.registry.lookup key = none) :
    Coherent { s with
      registry := s.registry.insert key s.next
      heap := s.heap.insert s.next (.new key)
      threads := Table.set s.threads thread (some (.spawning s.next))
      next := s.next + 1 } where
  lock_iff := by grind [holdsLock]
  known := by grind [Known, hs.known]
  registered := by
    have hnext := hs.next_free
    grind [new]
  allocated := by grind
  owners := by
    intro e v hv
    have hcount := count_set (owns e) s.threads thread (some (.spawning s.next))
    have hfresh := hs.count_fresh owns fun _ => owns_of_ne
    have hbefore := @hs.owners e
    simp only [hthread, any_some, any_none, owns] at hcount
    grind [new]
  runs := by
    intro e v hv
    have hcount := count_set (Pc.runs e) s.threads thread (some (.spawning s.next))
    have hfresh := hs.count_fresh Pc.runs fun _ => runs_of_ne
    have hbefore := @hs.runs e
    simp only [hthread, any_some, any_none, Pc.runs] at hcount
    grind [new, SharedWorkState.isFinished]
  running := by grind [new]
  locked := by
    have hunlocked := hs.unlocked hlock
    grind [holdsLock]
  sawTerminal := by
    have := @hs.entry_lt
    grind
  removing := by
    have hunlocked := hs.unlocked hlock
    grind [holdsLock]
  pending := by
    intro other e v hregistered hv hfinished howners
    rcases lookup_insert_cases hv with ⟨-, rfl⟩ | ⟨hne, hv⟩
    · cases hfinished
    · have hother : s.registry.lookup other = some e := by grind
      exact (hs.pending hother hv hfinished howners).set_of_none hthread _

omit [DecidableEq κ] in
theorem lookup_set_of_none {other : Nat} {o : Option (Pc ρ ε)}
    (hthread : s.threads.lookup thread = some pc) (hother : s.threads.lookup other = none) :
    (Table.set s.threads other o).lookup thread = some pc := by
  grind

namespace Coherent

theorem spawn {producer : Nat} (hs : Coherent s)
    (hthread : s.threads.lookup thread = some (.spawning entry)) (hproducer : s.threads.lookup producer = none) :
    Coherent { s with
      threads := Table.set (Table.set s.threads producer (some (.producing entry))) thread
        (some (.leased entry)) } where
  __ := hs
  lock_iff := by grind [holdsLock]
  known := by
    have := @hs.known
    unfold Known at *
    grind
  owners := by
    intro e v hv
    rw [hs.owners hv, count_set_of_eq, count_set_of_eq]
    · rw [hproducer]
      rfl
    · rw [lookup_set_of_none hthread hproducer]
      rfl
  runs := by
    intro e v hv
    have hproducing := count_set (Pc.runs e) s.threads producer (some (.producing entry))
    have hleased := count_set (Pc.runs e) (Table.set s.threads producer (some (.producing entry))) thread
      (some (.leased entry))
    rw [hproducer] at hproducing
    rw [lookup_set_of_none hthread hproducer] at hleased
    simp only [any_some, any_none, Pc.runs] at hproducing hleased
    rw [← hs.runs hv]
    dsimp only
    omega
  locked := by
    grind [holdsLock]
  sawTerminal := by grind
  removing := by grind
  pending := by
    intro key e v hregistered hv hfinished howners
    refine ((hs.pending hregistered hv hfinished howners).set_of_none hproducer _).set _ fun q hq _ => ?_
    rw [lookup_set_of_none hthread hproducer] at hq
    cases hq
    rfl

theorem attached (hs : Coherent s)
    (hthread : s.threads.lookup thread = some (.attaching entry)) (hvalue : s.heap.lookup entry = some value) :
    Coherent { s with
      heap := s.heap.insert entry { value with owners := value.owners + 1 }
      threads := Table.set s.threads thread (some (.leased entry))
      lock := none } where
  lock_iff := by
    have := @hs.lock_iff
    grind [holdsLock]
  known := by grind [Known, hs.known]
  registered := by grind
  allocated := by grind
  owners := by
    intro e v hv
    have hcount := count_set (owns e) s.threads thread (some (.leased entry))
    have hbefore := @hs.owners e
    simp only [hthread, any_some, owns] at hcount
    grind
  runs := by
    intro e v hv
    have hbefore := @hs.runs e
    rw [count_set_of_eq (by rw [hthread]; rfl)]
    grind
  running := by grind
  locked := by
    grind [holdsLock]
  sawTerminal := by grind
  removing := by
    have := @hs.lock_iff
    grind [holdsLock]
  pending := by
    intro key e v hregistered hv hfinished howners
    rcases lookup_insert_cases hv with ⟨-, rfl⟩ | ⟨hne, hv⟩
    · cases howners
    · refine (hs.pending hregistered hv hfinished howners).set _ fun q hq hentry => ?_
      rw [hthread] at hq
      cases hq
      exact absurd hentry.symm hne

theorem locks (hs : Coherent s)
    (hthread : s.threads.lookup thread = some (.retiring entry .lockRegistry starter))
    (hvalue : s.heap.lookup entry = some value) (hlock : s.lock = none)
    (hcurrent : s.registry.lookup value.key = some entry) :
    Coherent { s with
      threads := Table.set s.threads thread (some (.retiring entry .recheck starter))
      lock := some thread } where
  __ := hs
  lock_iff := by grind [holdsLock]
  known := by grind [Known, hs.known]
  owners := by
    intro e v hv
    rw [hs.owners hv, count_set_of_eq (by rw [hthread]; cases starter <;> rfl)]
  runs := by
    intro e v hv
    rw [← hs.runs hv, count_set_of_eq (by rw [hthread]; rfl)]
  locked := by grind
  sawTerminal := by
    grind
  removing := by grind
  pending := by
    intro key e v hregistered hv hfinished howners
    by_cases heq : e = entry
    · exact ⟨thread, .retiring entry .recheck starter, by rw [lookup_set, if_pos rfl], heq.symm, rfl⟩
    · refine (hs.pending hregistered hv hfinished howners).set _ fun q hq hentry => ?_
      rw [hthread] at hq
      cases hq
      exact absurd hentry.symm heq

/-- The end of a retirement: the lock is free, and the registry lost at most the thread's entry. -/
theorem retired {registry : Table κ Nat}
    {lock : Option Nat} (hs : Coherent s) (hthread : s.threads.lookup thread = some (.retiring entry retireStep starter))
    (hfree : lock = none) (hlock : ∀ t, s.lock = some t → t = thread)
    (hregistry : ∀ key e, registry.lookup key = some e →
      s.registry.lookup key = some e ∧ ((retiring entry retireStep starter : Pc ρ ε).pending = true → e ≠ entry))
    (hrunning : ∀ e value, s.heap.lookup e = some value → value.state.isFinished = false →
      registry.lookup value.key = some e) :
    Coherent { s with
      registry := registry
      threads := Table.set s.threads thread (afterRetirement entry starter)
      lock := lock } where
  lock_iff := by
    have := @hs.lock_iff
    cases starter <;> grind [holdsLock]
  known := by
    have := @hs.known
    unfold Known at *
    cases starter <;> grind
  registered := fun h => hs.registered (hregistry _ _ h).1
  allocated := hs.allocated
  owners := by
    intro e v hv
    rw [hs.owners hv, count_set_of_eq (by rw [hthread]; cases starter <;> rfl)]
  runs := by
    intro e v hv
    rw [← hs.runs hv, count_set_of_eq (by rw [hthread]; cases starter <;> rfl)]
  running := hrunning _ _
  locked := by
    have := @hs.lock_iff
    cases starter <;> grind [holdsLock]
  sawTerminal := by
    cases starter <;> grind
  removing := by
    cases starter <;> grind
  pending := by
    intro key e v hregistered hv hfinished howners
    obtain ⟨hregistered, hne⟩ := hregistry key e hregistered
    refine (hs.pending hregistered hv hfinished howners).set _ fun q hq hentry => ?_
    rw [hthread] at hq
    cases hq
    by_contra hpending
    exact hne (by simpa using hpending) hentry.symm

theorem steps (hs : Coherent s) (h : Steps s s') : Coherent s' := by
  cases h with
  | attach hthread hlock hentry =>
    rw [hs.retain_alive]
    exact hs.attach hthread hlock hentry
  | @start _ key hthread hlock hentry =>
    have hkey : s.registry.lookup key = none := by
      cases hlookup : s.registry.lookup key with
      | none => rfl
      | some entry =>
        have hdead := hentry entry hlookup
        rw [hs.alive hlookup] at hdead
        cases hdead
    rw [hs.retain_alive]
    exact hs.start hthread hlock hkey
  | spawn hthread hproducer => exact hs.spawn hthread hproducer
  | «local» hthread hvalue hlocal => exact hs.local hthread hvalue hlocal
  | attached hthread hvalue => exact hs.attached hthread hvalue
  | locks hthread hvalue hlock hcurrent => exact hs.locks hthread hvalue hlock hcurrent
  | @stale thread entry _ value hthread hvalue hlock hcurrent =>
    refine hs.retired hthread hlock (fun t ht => ?_) (fun key e hregistered => ⟨hregistered, ?_⟩) @hs.running
    · rw [hlock] at ht
      cases ht
    · rintro - rfl
      obtain ⟨_, hvalue', hkey⟩ := map_eq_some_iff.mp (hs.registered hregistered)
      cases hvalue.symm.trans hvalue'
      exact hcurrent (hkey ▸ hregistered)
  | @removes thread entry unowned starter value hthread hvalue =>
    have hheld : s.lock = some thread := hs.lock_iff.mpr (by rw [hthread]; rfl)
    have hcurrent := hs.locked hthread rfl hvalue
    have hfinished := hs.sawTerminal hthread rfl hvalue
    refine hs.retired hthread rfl (fun t ht => ?_) (fun key e hregistered => ?_) fun e v hv hrunning => ?_
    · exact some.inj (ht.symm.trans hheld)
    · cases unowned with
      | false => exact ⟨hregistered, nofun⟩
      | true =>
        rw [if_pos rfl, lookup_erase_ite] at hregistered
        split at hregistered
        · cases hregistered
        · rename_i hne
          refine ⟨hregistered, ?_⟩
          rintro - rfl
          obtain ⟨_, hvalue', hkey⟩ := map_eq_some_iff.mp (hs.registered hregistered)
          cases hvalue.symm.trans hvalue'
          exact hne hkey.symm
    · have hregistered := hs.running hv hrunning
      have hother : v.key ≠ value.key := by
        intro heq
        rw [heq, hcurrent] at hregistered
        cases hregistered
        cases hvalue.symm.trans hv
        rw [hfinished] at hrunning
        cases hrunning
      split
      · rw [lookup_erase_ite, if_neg hother]
        exact hregistered
      · exact hregistered

end Coherent

theorem coherent_of_runs (h : Runs (step lifetime) (fun _ _ => True) {} s) : Coherent s :=
  h.invariant coherent_start fun _ _ _ hs _ hstep => hs.steps (steps_of_step hs.known hstep)

end System

end Unica.WorkControl
