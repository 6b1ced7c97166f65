import Unica.Lib.Table

/-!
# The listener of the daemon

The accept loop of `run_daemon_configured_until` and the connection handlers it starts. A
handler holds an admission slot until its handshake has failed or has installed the owner
lease of the session, and the lease until the session ended. The loop reads the count of
slots and then the set of leases, and leaves when both are empty for long enough.

Time limits, failing reads and writes and panics of a handler are moves that end it. The locks
are never poisoned: no code that can panic runs under the lock of the lease set.
-/

namespace Unica.Daemon

open Lib

/-! ## The handshake -/

inductive V5DaemonErrorCode where
  | invalidRequest | handshakeRequired | protocolMismatch | coreMismatch | unauthorized | duplicateLease | overloaded
  deriving DecidableEq

variable {ι α : Type}

structure V5EndpointRecord (ι : Type) where
  coreIdentity : ι
  token : List UInt8

structure V5Hello (ι α : Type) where
  protocolVersion : Nat
  token : List UInt8
  coreIdentity : ι
  ownerLease : α

/-- What `read_v5_handshake_before` gives; `unread` is any other failure to read. -/
inductive HandshakeFrame (ι α : Type) where
  | hello (hello : V5Hello ι α)
  | other
  | invalidRequest
  | invalidData
  | unread

inductive HandshakeVerdict (α : Type) where
  | owner (lease : α)
  | refuse (code : V5DaemonErrorCode)
  | hangUp

def daemonProtocolVersion : Nat := 5

def tokensEqual (left right : List UInt8) : Bool :=
  if left.length ≠ right.length then false
  else (left.zip right).foldl (fun difference pair => difference ||| (pair.1 ^^^ pair.2)) 0 == 0

theorem tokensEqual_iff {left right : List UInt8} : tokensEqual left right = true ↔ left = right := by
  have hfold (left : List UInt8) : ∀ right d, left.length = right.length →
      ((left.zip right).foldl (fun d pair => d ||| (pair.1 ^^^ pair.2)) d = 0 ↔ d = 0 ∧ left = right) := by
    induction left with
    | nil => simp +contextual [eq_comm]
    | cons a left ih =>
      intro right d hlength
      cases right with
      | nil => cases hlength
      | cons b right =>
        rw [List.zip_cons_cons, List.foldl_cons, ih right _ (Nat.succ.inj hlength)]
        simp [and_assoc]
  unfold tokensEqual
  grind

def checkHandshake [DecidableEq ι] (record : V5EndpointRecord ι) : HandshakeFrame ι α → HandshakeVerdict α
  | .invalidRequest | .invalidData => .refuse .invalidRequest
  | .unread => .hangUp
  | .other => .refuse .handshakeRequired
  | .hello hello =>
      if hello.protocolVersion ≠ daemonProtocolVersion then .refuse .protocolMismatch
      else if hello.coreIdentity ≠ record.coreIdentity then .refuse .coreMismatch
      else if tokensEqual hello.token record.token = false then .refuse .unauthorized
      else .owner hello.ownerLease

/-! ## Handlers and the loop -/

/-- How an accepted connection ended. -/
inductive Departure where
  /-- No handler: not from this host, no slot left, or the thread did not start. -/
  | turnedAway
  | handshakeFailed
  | leaseGivenUp
  deriving DecidableEq

/-- Where the handler of a connection stands. -/
inductive Handler (α : Type) where
  /-- The listener has the slot and starts the thread. -/
  | spawning
  | handshaking
  /-- The answer to a refused handshake is written. -/
  | refusing (code : V5DaemonErrorCode)
  /-- About to install the lease. -/
  | acquiring (lease : α)
  /-- The lease is installed and the slot not yet given back. -/
  | owning (lease : α)
  | greeting (lease : α)
  /-- At the head of the session loop. -/
  | session (lease : α)
  /-- Waiting for a request, with the shutdown flag seen unset. -/
  | reading (lease : α)
  /-- The session has ended and its guards are dropped. -/
  | closing (lease : α)
  | ended (departure : Departure)
  deriving DecidableEq

namespace Handler

def holdsSlot : Handler α → Bool
  | spawning | handshaking | refusing _ | acquiring _ | owning _ => true
  | _ => false

def lease : Handler α → Option α
  | owning lease | greeting lease | session lease | reading lease | closing lease => some lease
  | _ => none

def isEnded : Handler α → Bool
  | ended _ => true
  | _ => false

end Handler

inductive LeaveReason where
  | stopped | restart | acceptFailed | idle
  deriving DecidableEq

/-- The points of the accept loop between two reads of shared data. -/
inductive LoopPoint where
  | polling
  | accepting
  | spawning (connection : Nat)
  | readingHandshakes
  | readingOwners (handshakesEmpty : Bool)
  | deciding (handshakesEmpty ownersEmpty : Bool)
  | left (reason : LeaveReason)
  | shutDown (reason : LeaveReason)
  deriving DecidableEq

/-- What `accept` returns; `restartRequired` is read after it. -/
inductive Accepted where
  | loopback (restartRequired : Bool)
  | foreign
  | wouldBlock
  | failed

/-- `admitted` is an `AtomicUsize`. `served` names the connection of every request a session
took from its stream. -/
structure Listener (α : Type) where
  point : LoopPoint := .polling
  admitted : Nat := 0
  leases : Finset α := ∅
  handlers : Table Nat (Handler α) := ∅
  shuttingDown : Bool := false
  idleSince : Nat
  served : List Nat := []
  next : Nat := 0

inductive Move (ι α : Type) where
  | poll (stopRequested restartRequired : Bool)
  | accept (accepted : Accepted)
  | spawned (started : Bool)
  | readHandshakes
  | readOwners
  | decide (now : Nat) (activeCancellationsEmpty hasRetainedWorkspaceWork : Bool)
  | shutDown
  /-- The handler has read the first frame. -/
  | handshake (connection : Nat) (frame : HandshakeFrame ι α)
  | acquire (connection : Nat)
  | releaseSlot (connection : Nat)
  /-- The ready answer is written. -/
  | ready (connection : Nat)
  /-- The head of the session loop reads the shutdown flag. -/
  | look (connection : Nat)
  /-- No request came in time. -/
  | timeOut (connection : Nat)
  /-- A request is taken from the stream and answered. -/
  | serve (connection : Nat)
  /-- The function returns or unwinds: a failed check, the end of the stream, `Release`, a
  refused handshake answered. -/
  | leave (connection : Nat)
  | releaseLease (connection : Nat)

namespace Listener

def usizeLimit : Nat := 2 ^ 64

/-- `fetch_sub(1)`, which wraps. -/
def fetchSub (admitted : Nat) : Nat := if admitted = 0 then usizeLimit - 1 else admitted - 1

variable [DecidableEq ι] [DecidableEq α]

def setHandler (s : Listener α) (connection : Nat) (handler : Handler α) : Listener α :=
  { s with handlers := Table.set s.handlers connection (some handler) }

/-- A connection that gets no handler. -/
def turnAway (s : Listener α) (point : LoopPoint) : Listener α :=
  { s.setHandler s.next (.ended .turnedAway) with point := point, next := s.next + 1 }

def accept (s : Listener α) : Accepted → Listener α
  | .failed => { s with point := .left .acceptFailed }
  | .wouldBlock => { s with point := .readingHandshakes }
  | .foreign => s.turnAway .readingHandshakes
  | .loopback restartRequired =>
      if restartRequired then s.turnAway (.left .restart)
      else if s.admitted + 1 < usizeLimit then
        { s.setHandler s.next .spawning with
          point := .spawning s.next
          admitted := s.admitted + 1
          next := s.next + 1 }
      else s.turnAway .readingHandshakes

/-- The function ends with the slot still held. -/
def failHandshake (s : Listener α) (connection : Nat) (departure : Departure) : Listener α :=
  { s.setHandler connection (.ended departure) with admitted := fetchSub s.admitted }

def handshake (record : V5EndpointRecord ι) (s : Listener α) (connection : Nat) (frame : HandshakeFrame ι α) :
    Listener α :=
  match checkHandshake record frame with
  | .owner lease => s.setHandler connection (.acquiring lease)
  | .refuse code => s.setHandler connection (.refusing code)
  | .hangUp => s.failHandshake connection .handshakeFailed

/-- `V5LeaseRegistry::acquire`. -/
def acquire (s : Listener α) (connection : Nat) (lease : α) : Listener α :=
  if lease ∈ s.leases then s.setHandler connection (.refusing .duplicateLease)
  else { s.setHandler connection (.owning lease) with leases := insert lease s.leases }

def decideIdle (s : Listener α) (idleGrace : Nat) (handshakesEmpty ownersEmpty : Bool) (now : Nat)
    (activeCancellationsEmpty hasRetainedWorkspaceWork : Bool) : Listener α :=
  let noActiveWork := ownersEmpty && handshakesEmpty && activeCancellationsEmpty && !hasRetainedWorkspaceWork
  if noActiveWork then
    if now - s.idleSince ≥ idleGrace then { s with point := .left .idle } else { s with point := .polling }
  else { s with point := .polling, idleSince := now }

def step (record : V5EndpointRecord ι) (idleGrace : Nat) (s : Listener α) : Move ι α → Option (Listener α)
  | .poll stopRequested restartRequired =>
      match s.point with
      | .polling =>
          if stopRequested then some { s with point := .left .stopped }
          else if restartRequired then some { s with point := .left .restart }
          else some { s with point := .accepting }
      | _ => none
  | .accept accepted =>
      match s.point with
      | .accepting => some (s.accept accepted)
      | _ => none
  | .spawned started =>
      match s.point with
      | .spawning connection =>
          if started then some { s.setHandler connection .handshaking with point := .readingHandshakes }
          else some { s.failHandshake connection .turnedAway with point := .readingHandshakes }
      | _ => none
  | .readHandshakes =>
      match s.point with
      | .readingHandshakes => some { s with point := .readingOwners (s.admitted == 0) }
      | _ => none
  | .readOwners =>
      match s.point with
      | .readingOwners handshakesEmpty => some { s with point := .deciding handshakesEmpty (s.leases = ∅) }
      | _ => none
  | .decide now activeCancellationsEmpty hasRetainedWorkspaceWork =>
      match s.point with
      | .deciding handshakesEmpty ownersEmpty =>
          some (s.decideIdle idleGrace handshakesEmpty ownersEmpty now activeCancellationsEmpty hasRetainedWorkspaceWork)
      | _ => none
  | .shutDown =>
      match s.point with
      | .left reason => some { s with point := .shutDown reason, shuttingDown := true }
      | _ => none
  | .handshake connection frame =>
      match s.handlers.lookup connection with
      | some .handshaking => some (s.handshake record connection frame)
      | _ => none
  | .acquire connection =>
      match s.handlers.lookup connection with
      | some (.acquiring lease) => some (s.acquire connection lease)
      | _ => none
  | .releaseSlot connection =>
      match s.handlers.lookup connection with
      | some (.owning lease) =>
          some { s.setHandler connection (.greeting lease) with admitted := fetchSub s.admitted }
      | _ => none
  | .ready connection =>
      match s.handlers.lookup connection with
      | some (.greeting lease) => some (s.setHandler connection (.session lease))
      | _ => none
  | .look connection =>
      match s.handlers.lookup connection with
      | some (.session lease) =>
          some (s.setHandler connection (if s.shuttingDown then .closing lease else .reading lease))
      | _ => none
  | .timeOut connection =>
      match s.handlers.lookup connection with
      | some (.reading lease) => some (s.setHandler connection (.session lease))
      | _ => none
  | .serve connection =>
      match s.handlers.lookup connection with
      | some (.reading lease) =>
          some { s.setHandler connection (.session lease) with served := connection :: s.served }
      | _ => none
  | .leave connection =>
      match s.handlers.lookup connection with
      | some .handshaking | some (.refusing _) => some (s.failHandshake connection .handshakeFailed)
      | some (.greeting lease) | some (.session lease) | some (.reading lease) =>
          some (s.setHandler connection (.closing lease))
      | _ => none
  | .releaseLease connection =>
      match s.handlers.lookup connection with
      | some (.closing lease) =>
          some { s.setHandler connection (.ended .leaseGivenUp) with leases := s.leases.erase lease }
      | _ => none

end Listener

end Unica.Daemon
