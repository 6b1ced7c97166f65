import Unica.Task.Opening
import Unica.Link.Mutations

/-!
# Task record and lifecycle link

A Task lives in two stores: its record and its link. Neither is written with the other
in one step, so each operation of the projection is a sequence of store operations, and
a process can die between any two of them. This module has the two stores side by side,
the failures a caller sees, and the tests that compare a link with a record.
-/

namespace Unica.Projection

open Lib Receipt Unica.Task Link Prog

/-- A failed projection step. `failStop` latches the daemon until it is restarted. -/
structure V5TaskProjectionFailure where
  error : ReceiptLedgerError
  failStop : Bool
  deriving DecidableEq

namespace V5TaskProjectionFailure

def stop (error : ReceiptLedgerError) : V5TaskProjectionFailure := ⟨error, true⟩

def fromLinkStore : LinkStoreError → V5TaskProjectionFailure
  | .deadlineExceeded => ⟨.deadlineExceeded, false⟩
  | .recordTooLarge _ _ => ⟨.recordTooLarge, false⟩
  | .notFound _ => ⟨.receiptNotFound, false⟩
  | .alreadyOwned | .alreadyMaterialized _ | .identityMismatch | .reservationMismatch | .stateMismatch
  | .versionMismatch _ _ | .commitUncertain _ | .corrupt _ | .storage _ => stop .storeUnavailable

def fromTaskStore (receiptKeyDigest : ReceiptKeyDigest) : V5TaskStoreError → V5TaskProjectionFailure
  | .deadlineExceeded => ⟨.deadlineExceeded, false⟩
  | .recordTooLarge _ => ⟨.recordTooLarge, false⟩
  | .notFound _ => ⟨.receiptNotFound, false⟩
  | .commitUncertain _ _ => stop (.commitUncertain receiptKeyDigest)
  | .mismatch _ _ | .corrupt _ | .storage _ => stop .storeUnavailable

def ofLedger (error : ReceiptLedgerError) : V5TaskProjectionFailure := ⟨error, error.requiresReopen⟩

end V5TaskProjectionFailure

open V5TaskProjectionFailure

def startupFailStop (message : String) : V5TaskProjectionFailure := stop (.corrupt message)

/-- The two store roots and the handles open on them. -/
structure Stores [ReceiptCodec] where
  tasks : TaskStore
  links : LinkStore

section Programs

variable [ReceiptCodec]

namespace Stores

def setTasks (tasks : TaskStore) (s : Stores) : Stores := { s with tasks }

def setLinks (links : LinkStore) (s : Stores) : Stores := { s with links }

/-- The link of a key in the catalog the handle serves. -/
def link (s : Stores) (keyDigest : ReceiptKeyDigest) : Option LinkEntry :=
  s.links.memory.entries.lookup keyDigest

end Stores

abbrev ProjectionM := Prog Stores V5TaskProjectionFailure

def onTasks {α : Type} (receiptKeyDigest : ReceiptKeyDigest) (m : TaskM α) : ProjectionM α :=
  m.within Stores.tasks Stores.setTasks (fromTaskStore receiptKeyDigest)

def onLinks {α : Type} (m : LinkM α) : ProjectionM α :=
  m.within Stores.links Stores.setLinks fromLinkStore

end Programs

/-! ## Comparing a link with a record -/

def receiptTaskProjectionFromStore (record : V5StoredInvocationRecord) :
    Except V5TaskProjectionFailure ReceiptTaskProjection :=
  match ReceiptTaskProjection.new ⟨record.taskId, record.invocationId, record.createdAtEpochMs,
    record.updatedAtEpochMs, record.ttlMs, record.pollIntervalMs, record.version⟩ with
  | .ok task => .ok task
  | .error e => .error (ofLedger e)

/-- Status, digest and epoch of a terminal record. -/
def closedTerminal : V5StoredTask → Option (ClosedTerminalStatus × TerminalDigest × EpochMs)
  | .completed epoch digest _ => some (.completed, digest, epoch)
  | .failed epoch digest _ => some (.failed, digest, epoch)
  | .cancelled epoch digest => some (.cancelled, digest, epoch)
  | .queued | .working => none

section Matching

variable [ReceiptCodec]

/-- `task_link_identity_matches_record`. -/
@[mk_iff sameTask_iff]
structure SameTask (header : LifecycleLinkRecordHeader) (task : ReceiptTaskProjection)
    (record : V5StoredInvocationRecord) : Prop where
  digest_eq : receiptKeyDigest header.key = record.receiptKeyDigest
  key_task_eq : header.key.reservedTaskId = record.taskId
  key_invocation_eq : header.key.invocationId = record.invocationId
  tool_eq : header.key.tool = record.tool
  arguments_eq : header.key.normalizedArgumentsHash = record.normalizedArgumentsHash
  link_digest_eq : header.link.receiptKeyDigest = record.receiptKeyDigest
  link_task_eq : header.link.taskId = record.taskId
  link_invocation_eq : header.link.invocationId = record.invocationId
  workspace_eq : header.link.workspaceIdentityHash = record.workspaceIdentityHash
  task_eq : task.taskId = record.taskId
  invocation_eq : task.invocationId = record.invocationId
  created_eq : task.createdAtEpochMs = record.createdAtEpochMs
  ttl_eq : task.ttlMs = record.ttlMs
  poll_eq : task.pollIntervalMs = record.pollIntervalMs

instance (header : LifecycleLinkRecordHeader) (task : ReceiptTaskProjection)
    (record : V5StoredInvocationRecord) : Decidable (SameTask header task record) :=
  decidable_of_iff _ (sameTask_iff header task record).symm

/-- The link describes the record as it is. -/
def exactProjection (expected : TaskBoundReceipt) (record : V5StoredInvocationRecord) : Prop :=
  expected.taskRecordVersion = record.version ∧ expected.task.version = record.version
    ∧ expected.task.updatedAtEpochMs = record.updatedAtEpochMs

/-- The record is one step ahead: cancelled, started before the attempt began, or terminal. -/
def oneStepSuccessor (expected : TaskBoundReceipt) (record : V5StoredInvocationRecord) : Prop :=
  checkedAdd wordBound expected.taskRecordVersion 1 = some record.version
    ∧ expected.task.version = expected.taskRecordVersion
    ∧ expected.task.updatedAtEpochMs ≤ record.updatedAtEpochMs
    ∧ (record.cancelRequested = true ∨ (expected.phase = .notBegun ∧ record.task = .working)
      ∨ record.task.isTerminal = true)

def taskBoundMatchesRecord (expected : TaskBoundReceipt) (record : V5StoredInvocationRecord) : Prop :=
  SameTask expected.record expected.task record
    ∧ (exactProjection expected record ∨ oneStepSuccessor expected record)

instance (expected : TaskBoundReceipt) (record : V5StoredInvocationRecord) :
    Decidable (exactProjection expected record) := inferInstanceAs (Decidable (_ ∧ _))

instance (expected : TaskBoundReceipt) (record : V5StoredInvocationRecord) :
    Decidable (oneStepSuccessor expected record) := inferInstanceAs (Decidable (_ ∧ _))

instance (expected : TaskBoundReceipt) (record : V5StoredInvocationRecord) :
    Decidable (taskBoundMatchesRecord expected record) := inferInstanceAs (Decidable (_ ∧ _))

def terminalRecordMatches (record : V5StoredInvocationRecord) (status : ClosedTerminalStatus)
    (digest : TerminalDigest) (epochMs : EpochMs) : Bool :=
  decide (closedTerminal record.task = some (status, digest, epochMs))

/-- The comparison both terminal links make. The projection of the record is built only where the
identities agree. -/
def terminalLinkMatchesRecord (header : LifecycleLinkRecordHeader) (task : ReceiptTaskProjection)
    (taskVersion : Nat) (status : ClosedTerminalStatus) (digest : TerminalDigest) (epochMs : EpochMs)
    (record : V5StoredInvocationRecord) : Except V5TaskProjectionFailure Bool :=
  if SameTask header task record then do
    let projection ← receiptTaskProjectionFromStore record
    pure (decide (task = projection) && decide (taskVersion = record.version)
      && terminalRecordMatches record status digest epochMs)
  else pure false

def taskTerminalBoundMatchesRecord (expected : TaskTerminalBoundReceipt)
    (record : V5StoredInvocationRecord) : Except V5TaskProjectionFailure Bool :=
  terminalLinkMatchesRecord expected.record expected.task expected.taskRecordVersion
    expected.terminalStatus expected.terminalDigest expected.terminalEpochMs record

def taskRetirementPendingMatchesRecord (expected : TaskRetirementPendingReceipt)
    (record : V5StoredInvocationRecord) : Except V5TaskProjectionFailure Bool :=
  terminalLinkMatchesRecord expected.record expected.task expected.expectedTerminalTaskVersion
    expected.terminalStatus expected.terminalDigest expected.terminalEpochMs record

end Matching

end Unica.Projection
