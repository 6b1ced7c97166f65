import Unica.Receipt.Operations.Batch
import Unica.Receipt.Recovery

/-!
# The ledger as a system

A ledger directory is closed or open. An open one takes calls, each with the
verdicts its fallible steps meet; a crash leaves the files behind, and so do a
clean close and an open that fails. A run is any finite sequence of such events.
-/

namespace Unica.Receipt

open Lib Lib.Prog

section System

variable [ReceiptCodec]

/-- The operations of the ledger port with their arguments. A batch call also carries the name
its envelope gets. -/
inductive LedgerCall where
  | reserve (key : ReceiptKey) (originalCutoff : OriginalCutoffDescriptor)
  | requestCancelOrReserve (key : ReceiptKey) (cancelReservedAtEpochMs : EpochMs)
  | bindReservedActor (key : ReceiptKey) (expectedVersion : ReceiptVersion)
      (boundWorkspaceIdentity : SafeIdentityHash)
  | markReservedBegun (key : ReceiptKey) (expectedVersion : ReceiptVersion)
  | promiseTaskUnbound (key : ReceiptKey) (expectedVersion : ReceiptVersion)
      (createdAtEpochMs : EpochMs) (ttlMs pollIntervalMs : Nat)
  | bindPromisedTaskActor (key : ReceiptKey) (expectedVersion : ReceiptVersion)
      (workspaceIdentityHash : SafeIdentityHash)
  | beginBoundTaskHandoff (key : ReceiptKey) (expectedVersion : ReceiptVersion)
      (createdAtEpochMs : EpochMs) (ttlMs pollIntervalMs : Nat)
  | completeBoundTaskHandoff (key : ReceiptKey) (expectedVersion : ReceiptVersion)
      (confirmedTaskBound : TaskBoundReceipt)
  | completeStagedTaskHandoff (key : ReceiptKey) (expectedVersion : ReceiptVersion)
      (confirmedTerminalBound : TaskTerminalBoundReceipt)
  | stageBoundTaskHandoffTerminal (key : ReceiptKey) (expectedVersion : ReceiptVersion)
      (terminalEpochMs : EpochMs) (terminal : V5CanonicalTerminal)
      (certificate : StagedTerminalTransferCertificate)
  | retainBegunTaskAfterLinkCapacity (key : ReceiptKey) (expectedVersion : ReceiptVersion)
      (provenLinkCapacity : ProvenTaskLinkCapacity)
  | requestTaskCancel (key : ReceiptKey) (expectedState : TaskCancellationReceipt)
  | publishReceiptBackedTaskTerminal (key : ReceiptKey) (expectedState : TaskCancellationReceipt)
      (terminalEpochMs : EpochMs) (terminal : V5CanonicalTerminal)
  | publishDirectTerminalPublication (key : ReceiptKey) (expectedVersion : ReceiptVersion)
      (terminalEpochMs : EpochMs) (terminal : V5CanonicalTerminal)
  | acknowledgeDirect (key : ReceiptKey) (terminalDigest : TerminalDigest)
      (acknowledgedAtEpochMs : EpochMs)
  | reclaimExpiredTombstones (observedAtEpochMs : EpochMs)
  | readReserved (digest : ReceiptKeyDigest)
  | recoverExact (key : ReceiptKey) (observedAtEpochMs : Option EpochMs)
  | resolveTaskExact (taskId : TaskId)
  | reserveBatch (name : BatchName) (requests : List (ReceiptKey × OriginalCutoffDescriptor))
  | bindReservedActorBatch (name : BatchName)
      (requests : List (ReceiptKey × ReceiptVersion × SafeIdentityHash))
  | markReservedBegunBatch (name : BatchName)
      (requests : List (ReceiptKey × ReceiptVersion × SafeIdentityHash))
  | publishDirectTerminalBatch (name : BatchName) (requests : List DirectRequest)
  | acknowledgeDirectBatch (name : BatchName)
      (requests : List (ReceiptKey × TerminalDigest × EpochMs))
  | publishCancelledDirectBatch (name : BatchName)
      (requests : List (ReceiptKey × OriginalCutoffDescriptor)) (terminalEpochMs : EpochMs)
      (terminal : V5CanonicalTerminal)

/-- The result of a call is dropped; its effect stays. -/
def discard {α : Type} (m : Ledger α) : Ledger Unit := do
  let _ ← m
  pure ()

def LedgerCall.run : LedgerCall → Ledger Unit
  | reserve key cutoff => discard (Receipt.reserve key cutoff)
  | requestCancelOrReserve key at' => discard (Receipt.requestCancelOrReserve key at')
  | bindReservedActor key version workspace => discard (Receipt.bindReservedActor key version workspace)
  | markReservedBegun key version => discard (Receipt.markReservedBegun key version)
  | promiseTaskUnbound key version created ttl poll =>
      discard (Receipt.promiseTaskUnbound key version created ttl poll)
  | bindPromisedTaskActor key version workspace =>
      discard (Receipt.bindPromisedTaskActor key version workspace)
  | beginBoundTaskHandoff key version created ttl poll =>
      discard (Receipt.beginBoundTaskHandoff key version created ttl poll)
  | completeBoundTaskHandoff key version confirmed =>
      discard (Receipt.completeBoundTaskHandoff key version confirmed)
  | completeStagedTaskHandoff key version confirmed =>
      discard (Receipt.completeStagedTaskHandoff key version confirmed)
  | stageBoundTaskHandoffTerminal key version epoch terminal certificate =>
      discard (Receipt.stageBoundTaskHandoffTerminal key version epoch terminal certificate)
  | retainBegunTaskAfterLinkCapacity key version capacity =>
      discard (Receipt.retainBegunTaskAfterLinkCapacity key version capacity)
  | requestTaskCancel key expected => discard (Receipt.requestTaskCancel key expected)
  | publishReceiptBackedTaskTerminal key expected epoch terminal =>
      discard (Receipt.publishReceiptBackedTaskTerminal key expected epoch terminal)
  | publishDirectTerminalPublication key version epoch terminal =>
      discard (Receipt.publishDirectTerminalPublication key version epoch terminal)
  | acknowledgeDirect key digest at' => discard (Receipt.acknowledgeDirect key digest at')
  | reclaimExpiredTombstones at' => discard (Receipt.reclaimExpiredTombstones at')
  | readReserved digest => discard (Receipt.readReserved digest)
  | recoverExact key at' => discard (recoverExactInner key at')
  | resolveTaskExact taskId => discard (Receipt.resolveTaskExact taskId)
  | reserveBatch name requests => discard (Receipt.reserveBatch name requests)
  | bindReservedActorBatch name requests => discard (Receipt.bindReservedActorBatch name requests)
  | markReservedBegunBatch name requests => discard (Receipt.markReservedBegunBatch name requests)
  | publishDirectTerminalBatch name requests => Receipt.publishDirectTerminalBatch name requests
  | acknowledgeDirectBatch name requests => Receipt.acknowledgeDirectBatch name requests
  | publishCancelledDirectBatch name requests epoch terminal =>
      discard (Receipt.publishCancelledDirectBatch name requests epoch terminal)

inductive LedgerState where
  | closed (files : Files)
  | opened (world : World)
  deriving DecidableEq

/-- A new directory. -/
def Files.empty : Files :=
  { disk := { rows := ∅, batches := ∅, generation := none, journal := [] }
    activeStaging := 0, generationStaging := 0 }

inductive LedgerEvent where
  | call (call : LedgerCall) (verdicts : List Verdict)
  | close
  | open (verdicts : List Verdict)

namespace LedgerState

/-- The directory, open or not. -/
def files : LedgerState → Files
  | closed files => files
  | opened world => world.toFiles

def disk (s : LedgerState) : Disk := s.files.disk

/-- A crash ends the process: the files stay, the store is gone. -/
def afterCall (r : Run World ReceiptLedgerError Unit) : LedgerState :=
  match r.outcome with
  | .crashed => closed r.state.toFiles
  | _ => opened r.state

/-- An open that fails gives no store. -/
def afterOpen (r : Run World ReceiptLedgerError Unit) : LedgerState :=
  match r.outcome with
  | .ok () => opened r.state
  | _ => closed r.state.toFiles

def openRun (files : Files) (verdicts : List Verdict) : Run World ReceiptLedgerError Unit :=
  openRetainedDirectory ⟨files, .fresh 0⟩ verdicts

/-- One event. An event that does not fit the state changes nothing. -/
def step : LedgerState → LedgerEvent → LedgerState
  | opened w, .call c verdicts => afterCall (c.run w verdicts)
  | opened w, .close => closed w.toFiles
  | closed files, .open verdicts => afterOpen (openRun files verdicts)
  | s, _ => s

def start : LedgerState := closed .empty

/-- Runs whose every event meets `P` in the state it happens in. -/
def Reaches (P : LedgerState → LedgerEvent → Prop) : LedgerState → LedgerState → Prop :=
  Relation.ReflTransGen fun s s' => ∃ e, P s e ∧ s' = s.step e

/-- Everything a ledger can come to. -/
def Reachable (s : LedgerState) : Prop := Reaches (fun _ _ => True) start s

/-- A concrete run reaches the state it computes. -/
theorem reaches_foldl {P : LedgerState → LedgerEvent → Prop} (events : List LedgerEvent)
    (s : LedgerState) (h : ∀ t e, P t e) : Reaches P s (events.foldl step s) := by
  induction events generalizing s with
  | nil => exact .refl
  | cons e rest ih => exact .head ⟨e, h s e, rfl⟩ (ih (s.step e))

end LedgerState

end System

end Unica.Receipt
