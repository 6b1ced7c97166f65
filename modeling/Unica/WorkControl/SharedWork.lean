import Unica.Lib.Machine
import Unica.Lib.Table

/-!
# Exact-key single flight

Callers of one key share an entry: the first starts a producer for it, the others attach.
The registry, the ownership count and the state of an entry sit under locks of their own,
and a thread holds none of them between two steps but the registry's where it says so. The
registry keeps weak references: an entry lives while some thread holds it.
-/

namespace Unica.WorkControl

open Lib

inductive SharedWorkLifetime where
  | ownerBound | producerBound
  deriving DecidableEq

inductive SharedWorkError (ε : Type) where
  | producer (error : ε)
  | producerPanicked
  | producerSpawnFailed
  deriving DecidableEq

inductive SharedWorkState (ρ ε : Type) where
  | running
  | finished (outcome : Except (SharedWorkError ε) ρ)

def SharedWorkState.isFinished {ρ ε : Type} : SharedWorkState ρ ε → Bool
  | running => false
  | finished _ => true

@[simp] theorem SharedWorkState.isFinished_finished {ρ ε : Type} (outcome : Except (SharedWorkError ε) ρ) :
    (finished outcome).isFinished = true := rfl

/-- `cancelled` is the flag of the producer's signal. -/
structure SharedWorkEntry (κ ρ ε : Type) where
  key : κ
  owners : Nat
  cancellationRequested : Bool
  cancelled : Bool
  state : SharedWorkState ρ ε

def SharedWorkEntry.new {κ ρ ε : Type} (key : κ) : SharedWorkEntry κ ρ ε := ⟨key, 1, false, false, .running⟩

/-- The steps of `retire_if_terminal_and_unowned`. The registry is locked from `recheck` on. -/
inductive RetireStep where
  | readTerminal
  | readOwners (terminal : Bool)
  | lockRegistry
  | recheck
  | remove (unowned : Bool)
  deriving DecidableEq

/-- Where a thread stands, with the entry it holds. `starter`: the thread is still inside the
`join_or_start` that made the entry and will return its lease. -/
inductive Pc (ρ ε : Type) where
  /-- `join_or_start` found the entry and has the registry locked. -/
  | attaching (entry : Nat)
  /-- `join_or_start` made the entry. -/
  | spawning (entry : Nat)
  | leased (entry : Nat)
  | producing (entry : Nat)
  | finishing (entry : Nat) (outcome : Except (SharedWorkError ε) ρ) (starter : Bool)
  /-- The last lease asked for the cancellation. -/
  | cancelling (entry : Nat)
  | retiring (entry : Nat) (step : RetireStep) (starter : Bool)

namespace Pc

variable {ρ ε : Type}

@[simp, grind] def entry : Pc ρ ε → Nat
  | attaching e | spawning e | leased e | producing e | finishing e _ _ | cancelling e | retiring e _ _ => e

def holdsLock : Pc ρ ε → Bool
  | attaching _ | retiring _ .recheck _ | retiring _ (.remove _) _ => true
  | _ => false

end Pc

/-- Entries on the heap are named by `next`; `lock` is the thread that has the registry locked. -/
structure System (κ ρ ε : Type) where
  registry : Table κ Nat := ∅
  heap : Table Nat (SharedWorkEntry κ ρ ε) := ∅
  threads : Table Nat (Pc ρ ε) := ∅
  lock : Option Nat := none
  next : Nat := 0

/-- `advance` is the next step of a thread that has only one. -/
inductive Move (κ ρ ε : Type) where
  | joinOrStart (thread : Nat) (key : κ)
  | spawn (thread producer : Nat)
  | spawnFails (thread : Nat)
  | returns (thread : Nat) (result : Except ε ρ)
  | panics (thread : Nat)
  | drop (thread : Nat)
  | advance (thread : Nat)

namespace System

variable {κ ρ ε : Type} [DecidableEq κ]

/-- `Weak::strong_count` is not zero. -/
def alive (s : System κ ρ ε) (entry : Nat) : Bool := Table.existsValue (fun _ pc => pc.entry = entry) s.threads

def goto (s : System κ ρ ε) (thread : Nat) (pc : Option (Pc ρ ε)) : System κ ρ ε :=
  { s with threads := Table.set s.threads thread pc }

def put (s : System κ ρ ε) (entry : Nat) (value : SharedWorkEntry κ ρ ε) : System κ ρ ε :=
  { s with heap := s.heap.insert entry value }

/-- What follows `finish` and the drop of a lease: the starter gets its lease, the others end. -/
@[simp, grind] def afterRetirement (entry : Nat) (starter : Bool) : Option (Pc ρ ε) :=
  if starter then some (.leased entry) else none

def joinOrStart (s : System κ ρ ε) (thread : Nat) (key : κ) : System κ ρ ε :=
  let s := { s with registry := Table.retain (fun _ entry => s.alive entry) s.registry }
  match s.registry.lookup key with
  | some entry => { s.goto thread (some (.attaching entry)) with lock := some thread }
  | none =>
      let entry := s.next
      let s := { s with registry := s.registry.insert key entry, next := entry + 1 }
      (s.put entry (.new key)).goto thread (some (.spawning entry))

def dropLease (s : System κ ρ ε) (lifetime : SharedWorkLifetime) (thread entry : Nat)
    (value : SharedWorkEntry κ ρ ε) : System κ ρ ε :=
  let value := { value with owners := value.owners - 1 }
  if value.owners = 0 ∧ lifetime = .ownerBound ∧ value.cancellationRequested = false then
    (s.put entry { value with cancellationRequested := true }).goto thread (some (.cancelling entry))
  else (s.put entry value).goto thread (some (.retiring entry .readTerminal false))

def retire (s : System κ ρ ε) (thread entry : Nat) (value : SharedWorkEntry κ ρ ε) (starter : Bool) :
    RetireStep → Option (System κ ρ ε)
  | .readTerminal =>
      some (s.goto thread (some (.retiring entry (.readOwners value.state.isFinished) starter)))
  | .readOwners terminal =>
      if terminal = true ∧ value.owners = 0 then
        some (s.goto thread (some (.retiring entry .lockRegistry starter)))
      else some (s.goto thread (afterRetirement entry starter))
  | .lockRegistry =>
      if s.lock ≠ none then none
      else if s.registry.lookup value.key = some entry then
        some { s.goto thread (some (.retiring entry .recheck starter)) with lock := some thread }
      else some (s.goto thread (afterRetirement entry starter))
  | .recheck => some (s.goto thread (some (.retiring entry (.remove (value.owners = 0)) starter)))
  | .remove unowned =>
      some { s.goto thread (afterRetirement entry starter) with
        lock := none
        registry := if unowned then s.registry.erase value.key else s.registry }

def advance (s : System κ ρ ε) (thread : Nat) (value : SharedWorkEntry κ ρ ε) : Pc ρ ε → Option (System κ ρ ε)
  | .attaching entry =>
      some { (s.put entry { value with owners := value.owners + 1 }).goto thread (some (.leased entry)) with
        lock := none }
  | .finishing entry outcome starter =>
      some ((s.put entry { value with state := .finished outcome }).goto thread
        (some (.retiring entry .readTerminal starter)))
  | .cancelling entry =>
      some ((s.put entry { value with cancelled := true }).goto thread
        (some (.retiring entry .readTerminal false)))
  | .retiring entry step starter => s.retire thread entry value starter step
  | _ => none

def step (lifetime : SharedWorkLifetime) (s : System κ ρ ε) : Move κ ρ ε → Option (System κ ρ ε)
  | .joinOrStart thread key =>
      if s.threads.lookup thread ≠ none ∨ s.lock ≠ none then none else some (s.joinOrStart thread key)
  | .spawn thread producer =>
      match s.threads.lookup thread with
      | some (.spawning entry) =>
          if s.threads.lookup producer ≠ none then none
          else some ((s.goto producer (some (.producing entry))).goto thread (some (.leased entry)))
      | _ => none
  | .spawnFails thread =>
      match s.threads.lookup thread with
      | some (.spawning entry) =>
          some (s.goto thread (some (.finishing entry (.error .producerSpawnFailed) true)))
      | _ => none
  | .returns thread result =>
      match s.threads.lookup thread with
      | some (.producing entry) =>
          some (s.goto thread (some (.finishing entry (result.mapError .producer) false)))
      | _ => none
  | .panics thread =>
      match s.threads.lookup thread with
      | some (.producing entry) =>
          some (s.goto thread (some (.finishing entry (.error .producerPanicked) false)))
      | _ => none
  | .drop thread =>
      match s.threads.lookup thread with
      | some (.leased entry) => (s.heap.lookup entry).map fun value => s.dropLease lifetime thread entry value
      | _ => none
  | .advance thread =>
      match s.threads.lookup thread with
      | some pc => (s.heap.lookup pc.entry).bind fun value => s.advance thread value pc
      | none => none

/-- The outcome of an entry, once it has one. -/
def outcome (s : System κ ρ ε) (entry : Nat) : Option (Except (SharedWorkError ε) ρ) :=
  match s.heap.lookup entry with
  | some ⟨_, _, _, _, .finished outcome⟩ => some outcome
  | _ => none

/-- What a lease finds when it looks at its entry. -/
def observe (s : System κ ρ ε) (thread : Nat) : Option (Except (SharedWorkError ε) ρ) :=
  match s.threads.lookup thread with
  | some (.leased entry) => s.outcome entry
  | _ => none

end System

end Unica.WorkControl
