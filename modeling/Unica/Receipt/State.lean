import Unica.Receipt.Catalog

/-!
# Receipt states

The values the ledger returns for a receipt. Each is built by a constructor that
checks the record against its key, its Task and its link, and carries what was
checked; `CatalogEntry.state` decodes a stored record through them.
-/

namespace Unica.Receipt

open Lib

/-- A terminal outcome with the digest of its canonical form. -/
structure V5CanonicalTerminal [ReceiptCodec] where
  outcome : ReceiptTerminalOutcome
  digest : TerminalDigest
  canonical : ReceiptCodec.terminalDigest outcome = some digest
  deriving DecidableEq

structure ReceiptTaskProjection extends StoredTask where
  created_le_updated : createdAtEpochMs ≤ updatedAtEpochMs
  ttl_pos : 0 < ttlMs
  poll_pos : 0 < pollIntervalMs
  version_pos : 0 < version
  deriving DecidableEq

open ReceiptTaskProjection

inductive ReservedPhase where
  | unbound
  | actorBound (boundWorkspaceIdentity : SafeIdentityHash)
  | begun (boundWorkspaceIdentity : SafeIdentityHash)
  deriving DecidableEq

/-- The identity part of a transfer certificate; its schema versions and byte maxima are
constants of the build. -/
structure StagedTerminalTransferCertificate where
  coreIdentityDigest : Nat
  receiptKeyDigest : ReceiptKeyDigest
  taskId : TaskId
  invocationId : InvocationId
  taskLinkDigest : TaskLinkDigest
  terminalDigest : TerminalDigest
  terminalEpochMs : EpochMs
  deriving DecidableEq

inductive HandoffTerminalStage [ReceiptCodec] where
  | noTerminal
  | staged (terminalEpochMs : EpochMs) (terminal : V5CanonicalTerminal)
      (certificate : StagedTerminalTransferCertificate)
  deriving DecidableEq

structure ReceiptRecordHeader where
  key : ReceiptKey
  keyDigest : ReceiptKeyDigest
  recordVersion : ReceiptVersion
  mutationSequence : Nat
  encodedBytes : Nat
  deriving DecidableEq

structure CancelReservedReceipt where
  record : ReceiptRecordHeader
  cancelReservedAtEpochMs : EpochMs
  deriving DecidableEq

structure ReservedReceipt where
  record : ReceiptRecordHeader
  reservedAtEpochMs : EpochMs
  originalCutoff : OriginalCutoffDescriptor
  phase : ReservedPhase
  cancelRequested : Bool
  reservedResultBytes : Nat
  deriving DecidableEq

structure DirectTerminalUnackedReceipt [ReceiptCodec] where
  record : ReceiptRecordHeader
  originalCutoff : OriginalCutoffDescriptor
  terminalEpochMs : EpochMs
  terminal : V5CanonicalTerminal
  reservedResultBytes : Nat
  deriving DecidableEq

structure AcknowledgedTombstoneReceipt where
  key : ReceiptKey
  keyDigest : ReceiptKeyDigest
  terminalDigest : TerminalDigest
  acknowledgedAtEpochMs : EpochMs
  encodedBytes : Nat
  expiry_lt : acknowledgedAtEpochMs + acknowledgedTombstoneTtlMs < wordBound
  deriving DecidableEq

/-- A receipt whose Task is promised but not yet owned by the Task store. The link is absent
until an actor is bound. -/
structure TaskPromisedUnboundReceipt where
  record : ReceiptRecordHeader
  task : ReceiptTaskProjection
  cancelRequested : Bool
  reservedResultBytes : Nat
  task_eq : task.taskId = record.key.reservedTaskId
  invocation_eq : task.invocationId = record.key.invocationId
  deriving DecidableEq

/-- The link of a bound Task names the same receipt, Task and invocation. -/
def linkMatches (record : ReceiptRecordHeader) (task : ReceiptTaskProjection)
    (link : TaskLinkIdentity) : Prop :=
  task.taskId = record.key.reservedTaskId ∧ task.invocationId = record.key.invocationId
    ∧ link.receiptKeyDigest = record.keyDigest ∧ link.taskId = task.taskId
    ∧ link.invocationId = task.invocationId

instance (record : ReceiptRecordHeader) (task : ReceiptTaskProjection) (link : TaskLinkIdentity) :
    Decidable (linkMatches record task link) :=
  inferInstanceAs (Decidable (_ ∧ _))

structure TaskPromisedActorBoundReceipt where
  record : ReceiptRecordHeader
  task : ReceiptTaskProjection
  link : TaskLinkIdentity
  cancelRequested : Bool
  reservedResultBytes : Nat
  exact : linkMatches record task link
  deriving DecidableEq

def StagedTerminalTransferCertificate.matchesStagedTerminal [ReceiptCodec]
    (certificate : StagedTerminalTransferCertificate) (key : ReceiptKey)
    (keyDigest : ReceiptKeyDigest) (link : TaskLinkIdentity) (terminalEpochMs : EpochMs)
    (terminal : V5CanonicalTerminal) : Bool :=
  decide (certificate.coreIdentityDigest = key.coreIdentityDigest)
    && decide (certificate.receiptKeyDigest = keyDigest)
    && decide (certificate.taskId = key.reservedTaskId)
    && decide (certificate.invocationId = key.invocationId)
    && decide (certificate.taskLinkDigest = ReceiptCodec.taskLinkDigest link)
    && decide (certificate.terminalDigest = terminal.digest)
    && decide (certificate.terminalEpochMs = terminalEpochMs)

structure TaskHandoffActorBoundReceipt [ReceiptCodec] where
  record : ReceiptRecordHeader
  task : ReceiptTaskProjection
  link : TaskLinkIdentity
  phase : AttemptPhase
  cancelRequested : Bool
  reservedResultBytes : Nat
  terminalStage : HandoffTerminalStage
  exact : linkMatches record task link
  deriving DecidableEq

structure TaskReceiptOwnedActorBoundReceipt where
  record : ReceiptRecordHeader
  task : ReceiptTaskProjection
  link : TaskLinkIdentity
  cancelRequested : Bool
  reservedResultBytes : Nat
  provenLinkCapacity : ProvenTaskLinkCapacity
  exact : linkMatches record task link
  deriving DecidableEq

structure TaskTerminalReceiptBackedReceipt [ReceiptCodec] where
  record : ReceiptRecordHeader
  task : ReceiptTaskProjection
  terminalEpochMs : EpochMs
  terminal : V5CanonicalTerminal
  cancelRequested : Bool
  reservedResultBytes : Nat
  deriving DecidableEq

inductive ReceiptState [ReceiptCodec] where
  | cancelReserved (receipt : CancelReservedReceipt)
  | reserved (receipt : ReservedReceipt)
  | directTerminalUnacked (receipt : DirectTerminalUnackedReceipt)
  | acknowledgedTombstone (receipt : AcknowledgedTombstoneReceipt)
  | taskPromisedUnbound (receipt : TaskPromisedUnboundReceipt)
  | taskPromisedActorBound (receipt : TaskPromisedActorBoundReceipt)
  | taskHandoffActorBound (receipt : TaskHandoffActorBoundReceipt)
  | taskReceiptOwnedActorBound (receipt : TaskReceiptOwnedActorBoundReceipt)
  | taskTerminalReceiptBacked (receipt : TaskTerminalReceiptBackedReceipt)
  deriving DecidableEq

/-- The four states a Task cancellation or a receipt-backed terminal starts from. -/
inductive TaskCancellationReceipt [ReceiptCodec] where
  | promisedUnbound (receipt : TaskPromisedUnboundReceipt)
  | promisedActorBound (receipt : TaskPromisedActorBoundReceipt)
  | handoffActorBound (receipt : TaskHandoffActorBoundReceipt)
  | receiptOwnedActorBound (receipt : TaskReceiptOwnedActorBoundReceipt)
  deriving DecidableEq

section Constructors

variable [ReceiptCodec]

def restoreCanonicalTerminal (outcome : ReceiptTerminalOutcome) (expectedDigest : TerminalDigest) :
    Except ReceiptLedgerError V5CanonicalTerminal :=
  match h : ReceiptCodec.terminalDigest outcome with
  | none => .error (.corrupt "receipt terminal cannot be canonicalized")
  | some digest =>
      if digest = expectedDigest then .ok ⟨outcome, digest, h⟩
      else .error (.corrupt "receipt terminal digest does not match its canonical outcome")

/-- Restores a committed result only from a record that carries its body. -/
def restoreHeldTerminal (terminal : Option ReceiptTerminalOutcome) (digest : TerminalDigest) :
    Except ReceiptLedgerError V5CanonicalTerminal :=
  match terminal with
  | none => .error (.corrupt "receipt result body must be read with its record from disk")
  | some outcome => restoreCanonicalTerminal outcome digest

def ReceiptTaskProjection.new (task : StoredTask) : Except ReceiptLedgerError ReceiptTaskProjection :=
  if hupdated : task.createdAtEpochMs ≤ task.updatedAtEpochMs then
    if hpos : 0 < task.ttlMs ∧ 0 < task.pollIntervalMs ∧ 0 < task.version then
      .ok ⟨task, hupdated, hpos.1, hpos.2.1, hpos.2.2⟩
    else .error (.corrupt "Task projection requires nonzero TTL, poll interval, and version")
  else .error (.corrupt "Task projection timestamp moved backwards")

omit [ReceiptCodec] in
theorem taskProjection_new_ok {task : StoredTask} {projection : ReceiptTaskProjection}
    (h : new task = .ok projection) : projection.toStoredTask = task := by
  unfold new at h
  split at h
  case isTrue =>
    split at h
    case isTrue => cases h; rfl
    case isFalse => cases h
  case isFalse => cases h

omit [ReceiptCodec] in
theorem taskProjection_new_self (projection : ReceiptTaskProjection) :
    new projection.toStoredTask = .ok projection := by
  unfold new
  rw [dif_pos projection.created_le_updated,
    dif_pos ⟨projection.ttl_pos, projection.poll_pos, projection.version_pos⟩]

def TaskPromisedUnboundReceipt.new (record : ReceiptRecordHeader) (task : ReceiptTaskProjection)
    (cancelRequested : Bool) (reservedResultBytes : Nat) :
    Except ReceiptLedgerError TaskPromisedUnboundReceipt :=
  if h : task.taskId = record.key.reservedTaskId ∧ task.invocationId = record.key.invocationId then
    .ok ⟨record, task, cancelRequested, reservedResultBytes, h.1, h.2⟩
  else .error (.corrupt "promised Task projection contradicts its receipt identity")

def TaskPromisedActorBoundReceipt.new (record : ReceiptRecordHeader) (task : ReceiptTaskProjection)
    (link : TaskLinkIdentity) (cancelRequested : Bool) (reservedResultBytes : Nat) :
    Except ReceiptLedgerError TaskPromisedActorBoundReceipt :=
  if h : linkMatches record task link then
    .ok ⟨record, task, link, cancelRequested, reservedResultBytes, h⟩
  else .error (.corrupt "actor-bound promised Task contradicts its receipt or link identity")

def canonicalStagedTransferCertificate (key : ReceiptKey) (keyDigest : ReceiptKeyDigest)
    (link : TaskLinkIdentity) (terminalEpochMs : EpochMs) (terminal : V5CanonicalTerminal) :
    StagedTerminalTransferCertificate :=
  { coreIdentityDigest := key.coreIdentityDigest
    receiptKeyDigest := keyDigest
    taskId := key.reservedTaskId
    invocationId := key.invocationId
    taskLinkDigest := ReceiptCodec.taskLinkDigest link
    terminalDigest := terminal.digest
    terminalEpochMs := terminalEpochMs }

def TaskHandoffActorBoundReceipt.new (record : ReceiptRecordHeader) (task : ReceiptTaskProjection)
    (link : TaskLinkIdentity) (phase : AttemptPhase) (cancelRequested : Bool)
    (reservedResultBytes : Nat) (terminalStage : HandoffTerminalStage) :
    Except ReceiptLedgerError TaskHandoffActorBoundReceipt :=
  if h : linkMatches record task link then
    match terminalStage with
    | .staged epoch terminal certificate =>
        if certificate.matchesStagedTerminal record.key record.keyDigest link epoch terminal then
          .ok ⟨record, task, link, phase, cancelRequested, reservedResultBytes, terminalStage, h⟩
        else .error (.corrupt "staged handoff terminal contradicts its transfer certificate")
    | .noTerminal =>
        .ok ⟨record, task, link, phase, cancelRequested, reservedResultBytes, terminalStage, h⟩
  else .error (.corrupt "actor-bound Task handoff contradicts its receipt or link identity")

def TaskReceiptOwnedActorBoundReceipt.new (record : ReceiptRecordHeader)
    (task : ReceiptTaskProjection) (link : TaskLinkIdentity) (cancelRequested : Bool)
    (reservedResultBytes : Nat) (provenLinkCapacity : ProvenTaskLinkCapacity) :
    Except ReceiptLedgerError TaskReceiptOwnedActorBoundReceipt :=
  if h : linkMatches record task link then
    match provenLinkCapacity with
    | .count observed maximum =>
        if maximum = 0 ∨ observed < maximum then
          .error (.corrupt "receipt-owned Task count-capacity evidence is not exhausted")
        else .ok ⟨record, task, link, cancelRequested, reservedResultBytes, provenLinkCapacity, h⟩
    | .bytes required available =>
        if required = 0 ∨ required ≤ available then
          .error (.corrupt "receipt-owned Task byte-capacity evidence is not exhausted")
        else .ok ⟨record, task, link, cancelRequested, reservedResultBytes, provenLinkCapacity, h⟩
  else .error (.corrupt "receipt-owned actor-bound Task contradicts its receipt or link identity")

def TaskTerminalReceiptBackedReceipt.new (record : ReceiptRecordHeader)
    (task : ReceiptTaskProjection) (terminalEpochMs : EpochMs) (terminal : V5CanonicalTerminal)
    (cancelRequested : Bool) (reservedResultBytes : Nat) :
    Except ReceiptLedgerError TaskTerminalReceiptBackedReceipt :=
  if task.taskId ≠ record.key.reservedTaskId ∨ task.invocationId ≠ record.key.invocationId
      ∨ task.updatedAtEpochMs ≠ terminalEpochMs then
    .error (.corrupt
      "receipt-backed Task projection contradicts its receipt identity or terminal epoch")
  else if wordBound ≤ terminalEpochMs + task.ttlMs then .error .timestampOverflow
  else .ok ⟨record, task, terminalEpochMs, terminal, cancelRequested, reservedResultBytes⟩

def AcknowledgedTombstoneReceipt.new (key : ReceiptKey) (keyDigest : ReceiptKeyDigest)
    (terminalDigest : TerminalDigest) (acknowledgedAtEpochMs : EpochMs) (encodedBytes : Nat) :
    Except ReceiptLedgerError AcknowledgedTombstoneReceipt :=
  if h : acknowledgedAtEpochMs + acknowledgedTombstoneTtlMs < wordBound then
    .ok ⟨key, keyDigest, terminalDigest, acknowledgedAtEpochMs, encodedBytes, h⟩
  else .error .timestampOverflow

end Constructors

namespace CatalogEntry

variable [ReceiptCodec] (e : CatalogEntry)

def recordHeader : ReceiptRecordHeader :=
  ⟨e.record.key, e.record.keyDigest, e.record.recordVersion, e.record.mutationSequence, e.encodedBytes⟩

/-- The link of the stored Task, refused where its stored digest is not its own. -/
def taskLink (task : StoredTask) (workspaceIdentityHash : SafeIdentityHash)
    (taskLinkDigest : TaskLinkDigest) (contradiction : String) :
    Except ReceiptLedgerError TaskLinkIdentity :=
  let link : TaskLinkIdentity :=
    ⟨e.record.keyDigest, task.taskId, task.invocationId, workspaceIdentityHash⟩
  if ReceiptCodec.taskLinkDigest link = taskLinkDigest then .ok link
  else .error (.corrupt contradiction)

def state : Except ReceiptLedgerError ReceiptState :=
  match e.record.lifecycle with
  | .cancelReserved cancelReservedAt _ cancelRequested =>
      if cancelRequested then
        .ok (.cancelReserved ⟨{ e.recordHeader with
          keyDigest := receiptKeyDigest e.record.key }, cancelReservedAt⟩)
      else .error (.corrupt "CancelReserved row contradicts its fixed cancellation reservation")
  | .expiredDeletion .. | .expiredTombstoneDeletion .. | .expiredDirectDeletion ..
  | .expiredTaskReceiptDeletion .. | .completedTaskHandoffDeletion .. =>
      .error (.corrupt "expired deletion witness is not a live receipt state")
  | .reservedUnbound reservedAt cutoff cancelRequested =>
      .ok (.reserved
        ⟨e.recordHeader, reservedAt, cutoff, .unbound, cancelRequested, e.reservedResultBytes⟩)
  | .reservedActorBound reservedAt cutoff workspace cancelRequested =>
      .ok (.reserved ⟨e.recordHeader, reservedAt, cutoff, .actorBound workspace, cancelRequested,
          e.reservedResultBytes⟩)
  | .reservedBegun reservedAt cutoff workspace cancelRequested =>
      .ok (.reserved ⟨e.recordHeader, reservedAt, cutoff, .begun workspace, cancelRequested,
          e.reservedResultBytes⟩)
  | .taskPromisedUnbound _ task cancelRequested => do
      let task ← new task
      let receipt ← TaskPromisedUnboundReceipt.new e.recordHeader task cancelRequested
        e.reservedResultBytes
      pure (.taskPromisedUnbound receipt)
  | .taskPromisedActorBound _ stored workspace linkDigest cancelRequested => do
      let task ← new stored
      let link ← e.taskLink stored workspace linkDigest
        "promised Task link digest contradicts its actor identity"
      let receipt ← TaskPromisedActorBoundReceipt.new e.recordHeader task link cancelRequested
        e.reservedResultBytes
      pure (.taskPromisedActorBound receipt)
  | .taskHandoffActorBound _ stored workspace linkDigest phase cancelRequested stage => do
      let task ← new stored
      let link ← e.taskLink stored workspace linkDigest
        "Task handoff link digest contradicts its actor identity"
      let stage ← match stage with
        | .noTerminal => pure .noTerminal
        | .staged epoch digest terminal => do
            let terminal ← restoreHeldTerminal terminal digest
            pure (.staged epoch terminal (canonicalStagedTransferCertificate e.record.key
              e.record.keyDigest link epoch terminal))
      let receipt ← TaskHandoffActorBoundReceipt.new e.recordHeader task link phase cancelRequested
        e.reservedResultBytes stage
      pure (.taskHandoffActorBound receipt)
  | .taskReceiptOwnedActorBound _ stored workspace linkDigest capacity cancelRequested => do
      let task ← new stored
      let link ← e.taskLink stored workspace linkDigest
        "receipt-owned Task link digest contradicts its actor identity"
      let receipt ← TaskReceiptOwnedActorBoundReceipt.new e.recordHeader task link cancelRequested
        e.reservedResultBytes capacity
      pure (.taskReceiptOwnedActorBound receipt)
  | .directTerminalUnacked cutoff epoch digest terminal => do
      let terminal ← restoreHeldTerminal terminal digest
      pure (.directTerminalUnacked ⟨e.recordHeader, cutoff, epoch, terminal, e.reservedResultBytes⟩)
  | .taskTerminalReceiptBacked stored epoch digest terminal cancelRequested => do
      let terminal ← restoreHeldTerminal terminal digest
      let task ← new stored
      let receipt ← TaskTerminalReceiptBackedReceipt.new e.recordHeader task epoch terminal
        cancelRequested e.reservedResultBytes
      pure (.taskTerminalReceiptBacked receipt)
  | .acknowledgementCommit .. =>
      .error (.corrupt "acknowledgement commit witness is not a live receipt state")
  | .acknowledgedTombstone digest acknowledgedAt =>
      match AcknowledgedTombstoneReceipt.new e.record.key e.record.keyDigest digest acknowledgedAt
        e.encodedBytes with
      | .ok receipt => .ok (.acknowledgedTombstone receipt)
      | .error _ => .error (.corrupt "acknowledged tombstone expiry exceeds u64")

/-- The reservation an entry holds. A Task lifecycle other than a terminal one runs into
`unreachable!` in the source. -/
def reservation : Except ReceiptLedgerError ReservedReceipt := do
  match ← e.state with
  | .reserved reservation => pure reservation
  | .cancelReserved _ | .directTerminalUnacked _ | .taskTerminalReceiptBacked _
  | .acknowledgedTombstone _ => .error .receiptRowPresentUnsupported
  | _ => .error (.panicked "active receipt codec does not expose this state as a reservation")

end CatalogEntry

end Unica.Receipt
