import Unica.Receipt.State

/-!
# Building and encoding stored records

The builders give a record its shape and make no decision about it. An encoded
record knows that it fits the entitlement of a receipt.
-/

namespace Unica.Receipt

open Lib

/-- The lifecycle-link record a Task store confirms a handoff with. -/
structure LifecycleLinkRecordHeader [ReceiptCodec] where
  key : ReceiptKey
  link : TaskLinkIdentity
  lifecycleLinkVersion : Nat
  mutationSequence : Nat
  encodedBytes : Nat
  version_pos : 0 < lifecycleLinkVersion
  sequence_pos : 0 < mutationSequence
  bytes_pos : 0 < encodedBytes
  bytes_le : encodedBytes ≤ maxTaskLifecycleLinkRecordBytes
  digest_eq : link.receiptKeyDigest = receiptKeyDigest key
  task_eq : link.taskId = key.reservedTaskId
  invocation_eq : link.invocationId = key.invocationId
  deriving DecidableEq

structure TaskBoundReceipt [ReceiptCodec] where
  record : LifecycleLinkRecordHeader
  task : ReceiptTaskProjection
  taskRecordVersion : Nat
  bindEpochMs : EpochMs
  phase : AttemptPhase
  task_eq : task.taskId = record.key.reservedTaskId
  invocation_eq : task.invocationId = record.key.invocationId
  version_eq : task.version = taskRecordVersion
  created_le_bind : task.createdAtEpochMs ≤ bindEpochMs
  deriving DecidableEq

inductive ClosedTerminalStatus where
  | completed | failed | cancelled
  deriving DecidableEq

structure TaskTerminalBoundReceipt [ReceiptCodec] where
  record : LifecycleLinkRecordHeader
  task : ReceiptTaskProjection
  taskRecordVersion : Nat
  terminalStatus : ClosedTerminalStatus
  terminalDigest : TerminalDigest
  terminalEpochMs : EpochMs
  expiresAtEpochMs : EpochMs
  task_eq : task.taskId = record.key.reservedTaskId
  invocation_eq : task.invocationId = record.key.invocationId
  version_eq : task.version = taskRecordVersion
  updated_eq : task.updatedAtEpochMs = terminalEpochMs
  expiry_eq : expiresAtEpochMs = terminalEpochMs + task.ttlMs
  expiry_lt : expiresAtEpochMs < wordBound
  deriving DecidableEq

def buildReservedRecord (key : ReceiptKey) (keyDigest : ReceiptKeyDigest)
    (originalCutoff : OriginalCutoffDescriptor) (mutationSequence : Nat)
    (recordVersion : ReceiptVersion) (cancelRequested : Bool) : StoredActiveReceipt :=
  { schemaVersion := receiptRecordSchemaVersion
    mutationSequence, recordVersion, key, keyDigest
    lifecycle := .reservedUnbound originalCutoff.acceptedEpochMs originalCutoff cancelRequested }

def buildCancelReservedRecord (key : ReceiptKey) (keyDigest : ReceiptKeyDigest)
    (cancelReservedAtEpochMs : EpochMs) (mutationSequence : Nat) : StoredActiveReceipt :=
  { schemaVersion := persistentCancelRecordSchemaVersion
    mutationSequence, recordVersion := .initial, key, keyDigest
    lifecycle := .cancelReserved cancelReservedAtEpochMs none true }

/-- A successor of the stored record: same key, new version, sequence and lifecycle. -/
def CatalogEntry.successor (expected : CatalogEntry) (mutationSequence : Nat)
    (recordVersion : ReceiptVersion) (lifecycle : StoredActiveLifecycle) : StoredActiveReceipt :=
  { schemaVersion := receiptRecordSchemaVersion
    mutationSequence, recordVersion, key := expected.record.key
    keyDigest := expected.record.keyDigest, lifecycle }

def nextRecordVersion (version : ReceiptVersion) : Except ReceiptLedgerError ReceiptVersion :=
  okOr (.corrupt "receipt record version exhausted u64") version.checkedNext

section Builders

variable [ReceiptCodec]

def buildReservedPhaseRecord (expected : CatalogEntry) (phase : ReservedPhase)
    (mutationSequence : Nat) (recordVersion : ReceiptVersion) :
    Except ReceiptLedgerError StoredActiveReceipt := do
  let reserved ← expected.reservation
  let lifecycle ← match phase with
    | .unbound => .error (.corrupt "reserved phase transition cannot return to unbound")
    | .actorBound workspace => pure (.reservedActorBound reserved.reservedAtEpochMs
        reserved.originalCutoff workspace reserved.cancelRequested)
    | .begun workspace => pure (.reservedBegun reserved.reservedAtEpochMs
        reserved.originalCutoff workspace reserved.cancelRequested)
  pure (expected.successor mutationSequence recordVersion lifecycle)

def buildReservedCancelRecord (expected : CatalogEntry) (mutationSequence : Nat)
    (recordVersion : ReceiptVersion) : Except ReceiptLedgerError StoredActiveReceipt := do
  let reserved ← expected.reservation
  let lifecycle := match reserved.phase with
    | .unbound => .reservedUnbound reserved.reservedAtEpochMs reserved.originalCutoff true
    | .actorBound workspace =>
        .reservedActorBound reserved.reservedAtEpochMs reserved.originalCutoff workspace true
    | .begun workspace =>
        .reservedBegun reserved.reservedAtEpochMs reserved.originalCutoff workspace true
  pure (expected.successor mutationSequence recordVersion lifecycle)

def buildExpiredTombstoneDeletionRecord (expected : CatalogEntry) (observedAtEpochMs : EpochMs)
    (mutationSequence : Nat) : Except ReceiptLedgerError StoredActiveReceipt :=
  match expected.record.lifecycle with
  | .acknowledgedTombstone digest acknowledgedAt =>
      .ok (expected.successor mutationSequence .expiredTombstoneWitness
        (.expiredTombstoneDeletion observedAtEpochMs acknowledgedAt digest))
  | _ => .error
      (.corrupt "expired tombstone deletion witness requires an acknowledged predecessor")

def buildExpiredDirectDeletionRecord (expected : CatalogEntry) (observedAtEpochMs : EpochMs)
    (mutationSequence : Nat) : Except ReceiptLedgerError StoredActiveReceipt :=
  match expected.record.lifecycle with
  | .directTerminalUnacked _ epoch digest _ => do
      let version ← nextRecordVersion expected.record.recordVersion
      pure (expected.successor mutationSequence version
        (.expiredDirectDeletion observedAtEpochMs expected.record.recordVersion
          expected.record.mutationSequence epoch digest))
  | _ => .error (.corrupt "expired Direct deletion witness requires a Direct predecessor")

def buildExpiredTaskReceiptDeletionRecord (expected : CatalogEntry) (observedAtEpochMs : EpochMs)
    (mutationSequence : Nat) : Except ReceiptLedgerError StoredActiveReceipt :=
  match expected.record.lifecycle with
  | .taskTerminalReceiptBacked task epoch digest _ _ => do
      let version ← nextRecordVersion expected.record.recordVersion
      pure (expected.successor mutationSequence version
        (.expiredTaskReceiptDeletion observedAtEpochMs expected.record.recordVersion
          expected.record.mutationSequence epoch task.ttlMs digest))
  | _ => .error (.corrupt
      "expired receipt-backed Task deletion witness requires a Task terminal predecessor")

/-- The part of a handoff witness both completions read from the stored record. -/
def handoffPredecessor (lifecycle : StoredActiveLifecycle) (staged : Bool) :
    Option (StoredTask × SafeIdentityHash × TaskLinkDigest × AttemptPhase) :=
  match lifecycle, staged with
  | .taskPromisedActorBound _ task workspace link _, false => some (task, workspace, link, .notBegun)
  | .taskHandoffActorBound _ task workspace link phase _ .noTerminal, false =>
      some (task, workspace, link, phase)
  | .taskHandoffActorBound _ task workspace link phase _ (.staged ..), true =>
      some (task, workspace, link, phase)
  | _, _ => none

def buildHandoffDeletionRecord (expected : CatalogEntry) (staged : Bool) (missing : String)
    (linkRecord : LifecycleLinkRecordHeader) (taskRecordVersion : Nat) (bindEpochMs : EpochMs)
    (mutationSequence : Nat) : Except ReceiptLedgerError StoredActiveReceipt := do
  let (task, workspace, link, phase) ← okOr (.corrupt missing)
    (handoffPredecessor expected.record.lifecycle staged)
  let version ← nextRecordVersion expected.record.recordVersion
  pure (expected.successor mutationSequence version (.completedTaskHandoffDeletion
    { priorRecordVersion := expected.record.recordVersion
      priorMutationSequence := expected.record.mutationSequence
      priorCreatedAtEpochMs := task.createdAtEpochMs
      priorTaskVersion := task.version
      workspaceIdentityHash := workspace
      taskLinkDigest := link
      taskBoundLifecycleLinkVersion := linkRecord.lifecycleLinkVersion
      taskBoundMutationSequence := linkRecord.mutationSequence
      taskRecordVersion, bindEpochMs, phase
      terminalStaged := staged }))

def buildCompletedTaskHandoffDeletionRecord (expected : CatalogEntry) (confirmed : TaskBoundReceipt)
    (mutationSequence : Nat) : Except ReceiptLedgerError StoredActiveReceipt :=
  buildHandoffDeletionRecord expected false
    "completed handoff deletion witness requires an unstaged actor-bound Task predecessor"
    confirmed.record confirmed.taskRecordVersion confirmed.bindEpochMs mutationSequence

def buildCompletedStagedTaskHandoffDeletionRecord (expected : CatalogEntry)
    (confirmed : TaskTerminalBoundReceipt) (mutationSequence : Nat) :
    Except ReceiptLedgerError StoredActiveReceipt :=
  buildHandoffDeletionRecord expected true
    "completed staged handoff witness requires a staged Task handoff predecessor"
    confirmed.record confirmed.taskRecordVersion confirmed.terminalEpochMs mutationSequence

def buildAcknowledgementCommitRecord (expected : CatalogEntry) (terminalDigest : TerminalDigest)
    (acknowledgedAtEpochMs : EpochMs) (mutationSequence : Nat) :
    Except ReceiptLedgerError StoredActiveReceipt :=
  match expected.record.lifecycle with
  | .directTerminalUnacked .. => do
      let version ← nextRecordVersion expected.record.recordVersion
      pure (expected.successor mutationSequence version
        (.acknowledgementCommit terminalDigest acknowledgedAtEpochMs expected.record.recordVersion
          expected.record.mutationSequence))
  | _ => .error (.corrupt "acknowledgement commit witness requires a Direct predecessor")

def buildAcknowledgedTombstoneRecordFromWitness (witness : CatalogEntry) :
    Except ReceiptLedgerError StoredActiveReceipt :=
  match witness.record.lifecycle with
  | .acknowledgementCommit digest acknowledgedAt _ _ =>
      .ok (witness.successor 0 witness.record.recordVersion
        (.acknowledgedTombstone digest acknowledgedAt))
  | _ => .error (.corrupt "compact acknowledgement requires an acknowledgement witness")

end Builders

end Unica.Receipt
