import Unica.Receipt.Records

/-!
# Task records

The record a Task store keeps for one Task, the values its callers exchange with it
and the checks every record passes before it is written and after it is read. A
completed result is its canonical JSON text, and its size is the codec's.
-/

namespace Unica.Task

open Lib Receipt Option

/-- Largest Task record the store writes. -/
def maxTaskRecordBytes : Nat := maxReceiptEntitlementBytes

inductive V5TaskStatus where
  | queued | working | completed | failed | cancelled
  deriving DecidableEq

inductive V5StoredTask where
  | queued
  | working
  | completed (terminalEpochMs : EpochMs) (terminalDigest : TerminalDigest) (result : String)
  | failed (terminalEpochMs : EpochMs) (terminalDigest : TerminalDigest)
      (reason : V5SafeFailureReason)
  | cancelled (terminalEpochMs : EpochMs) (terminalDigest : TerminalDigest)
  deriving DecidableEq

namespace V5StoredTask

def status : V5StoredTask → V5TaskStatus
  | queued => .queued
  | working => .working
  | completed .. => .completed
  | failed .. => .failed
  | cancelled .. => .cancelled

def isTerminal : V5StoredTask → Bool
  | completed .. | failed .. | cancelled .. => true
  | queued | working => false

def terminalDigest : V5StoredTask → Option TerminalDigest
  | completed _ digest _ | failed _ digest _ | cancelled _ digest => some digest
  | queued | working => none

def terminalEpochMs : V5StoredTask → Option EpochMs
  | completed epoch _ _ | failed epoch _ _ | cancelled epoch _ => some epoch
  | queued | working => none

end V5StoredTask

structure V5TaskIdentity where
  taskId : TaskId
  invocationId : InvocationId
  receiptKeyDigest : ReceiptKeyDigest
  deriving DecidableEq

structure V5StoredInvocationRecord where
  taskId : TaskId
  invocationId : InvocationId
  receiptKeyDigest : ReceiptKeyDigest
  tool : V5ToolIdentity
  normalizedArgumentsHash : Nat
  workspaceIdentityHash : SafeIdentityHash
  createdAtEpochMs : EpochMs
  updatedAtEpochMs : EpochMs
  ttlMs : Nat
  pollIntervalMs : Nat
  version : Nat
  cancelRequested : Bool
  task : V5StoredTask
  deriving DecidableEq

def V5StoredInvocationRecord.identity (record : V5StoredInvocationRecord) : V5TaskIdentity :=
  ⟨record.taskId, record.invocationId, record.receiptKeyDigest⟩

def V5TaskIdentity.matchesRecord (identity : V5TaskIdentity) (record : V5StoredInvocationRecord) :
    Bool :=
  decide (identity.taskId = record.taskId) && decide (identity.invocationId = record.invocationId)
    && decide (identity.receiptKeyDigest = record.receiptKeyDigest)

structure NewV5InvocationRecord where
  identity : V5TaskIdentity
  tool : V5ToolIdentity
  normalizedArgumentsHash : Nat
  workspaceIdentityHash : SafeIdentityHash
  pollIntervalMs : Nat
  ttlMs : Nat
  initialEpochMs : Option EpochMs
  recoveredBegunCancelRequested : Option Bool
  deriving DecidableEq

namespace NewV5InvocationRecord

def matchesRecord (new : NewV5InvocationRecord) (record : V5StoredInvocationRecord) : Bool :=
  new.identity.matchesRecord record && decide (new.tool = record.tool)
    && decide (new.normalizedArgumentsHash = record.normalizedArgumentsHash)
    && decide (new.workspaceIdentityHash = record.workspaceIdentityHash)
    && decide (new.pollIntervalMs = record.pollIntervalMs)
    && decide (new.ttlMs = record.ttlMs)
    && new.initialEpochMs.all (fun initial =>
      decide (record.createdAtEpochMs = initial) && decide (initial ≤ record.updatedAtEpochMs))
    && new.recoveredBegunCancelRequested.all (fun cancel =>
      decide (record.task = .working) && decide (record.cancelRequested = cancel))

/-- A Task of a recovered begun attempt starts Working with the cancel its receipt carried. -/
def intoStored (new : NewV5InvocationRecord) (nowEpochMs : EpochMs) : V5StoredInvocationRecord :=
  { taskId := new.identity.taskId
    invocationId := new.identity.invocationId
    receiptKeyDigest := new.identity.receiptKeyDigest
    tool := new.tool
    normalizedArgumentsHash := new.normalizedArgumentsHash
    workspaceIdentityHash := new.workspaceIdentityHash
    createdAtEpochMs := new.initialEpochMs.getD nowEpochMs
    updatedAtEpochMs := new.initialEpochMs.getD nowEpochMs
    ttlMs := new.ttlMs
    pollIntervalMs := new.pollIntervalMs
    version := 1
    cancelRequested := new.recoveredBegunCancelRequested.getD false
    task := if new.recoveredBegunCancelRequested.isSome then .working else .queued }

end NewV5InvocationRecord

inductive V5CommitOperation where
  | create | requestCancel | startWorking | publishTerminal | deleteTerminal
  deriving DecidableEq

inductive V5TaskMismatch where
  | identity
  | version (expected actual : Nat)
  | existingRecord
  | state
  deriving DecidableEq

inductive V5TaskStoreError where
  | notFound (taskId : TaskId)
  | commitUncertain (taskId : TaskId) (operation : V5CommitOperation)
  | mismatch (taskId : TaskId) (reason : V5TaskMismatch)
  | deadlineExceeded
  | recordTooLarge (maxBytes : Nat)
  | corrupt (message : String)
  | storage (operation : String)
  deriving DecidableEq

inductive V5StartWorkingOutcome where
  | started (record : V5StoredInvocationRecord)
  | cancelOrTerminalWinner (record : V5StoredInvocationRecord)
  deriving DecidableEq

inductive V5TerminalPublication where
  | completed (terminalEpochMs : EpochMs) (terminalDigest : TerminalDigest) (result : String)
  | failed (terminalEpochMs : EpochMs) (terminalDigest : TerminalDigest)
      (reason : V5SafeFailureReason)
  | cancelled (terminalEpochMs : EpochMs) (terminalDigest : TerminalDigest)
  deriving DecidableEq

namespace V5TerminalPublication

def intoStoredTask : V5TerminalPublication → V5StoredTask
  | completed epoch digest result => .completed epoch digest result
  | failed epoch digest reason => .failed epoch digest reason
  | cancelled epoch digest => .cancelled epoch digest

def matchesTask : V5TerminalPublication → V5StoredTask → Bool
  | completed epoch digest result, .completed epoch' digest' result' =>
      decide (epoch = epoch') && decide (digest = digest') && decide (result = result')
  | failed epoch digest reason, .failed epoch' digest' reason' =>
      decide (epoch = epoch') && decide (digest = digest') && decide (reason = reason')
  | cancelled epoch digest, .cancelled epoch' digest' =>
      decide (epoch = epoch') && decide (digest = digest')
  | _, _ => false

def status : V5TerminalPublication → V5TaskStatus
  | completed .. => .completed
  | failed .. => .failed
  | cancelled .. => .cancelled

def terminalEpochMs : V5TerminalPublication → EpochMs
  | completed epoch _ _ | failed epoch _ _ | cancelled epoch _ => epoch

end V5TerminalPublication

structure V5TaskRetirement where
  identity : V5TaskIdentity
  expectedTerminalVersion : Nat
  terminalStatus : V5TaskStatus
  terminalDigest : TerminalDigest
  deriving DecidableEq

namespace V5TaskRetirement

def fromTerminalRecord (record : V5StoredInvocationRecord) : Option V5TaskRetirement :=
  record.task.terminalDigest.map fun digest =>
    ⟨record.identity, record.version, record.task.status, digest⟩

def matchesTerminalRecord (retirement : V5TaskRetirement) (record : V5StoredInvocationRecord) :
    Bool :=
  retirement.identity.matchesRecord record
    && decide (retirement.expectedTerminalVersion = record.version)
    && decide (retirement.terminalStatus = record.task.status)
    && decide (record.task.terminalDigest = some retirement.terminalDigest)

end V5TaskRetirement

inductive V5DeleteTerminalOutcome where
  | deleted (retirement : V5TaskRetirement)
  | alreadyAbsent (retirement : V5TaskRetirement)
  deriving DecidableEq

/-- What the opening inspection notes of a record. -/
structure V5TaskRecoveryEntry where
  identity : V5TaskIdentity
  version : Nat
  status : V5TaskStatus
  cancelRequested : Bool
  deriving DecidableEq

def V5TaskRecoveryEntry.fromRecord (record : V5StoredInvocationRecord) : V5TaskRecoveryEntry :=
  ⟨record.identity, record.version, record.task.status, record.cancelRequested⟩

inductive RecoveryTerminalReason where
  | cancelled | interruptedBeforeExecution | outcomeUncertain
  deriving DecidableEq

inductive CanonicalResultSizeError where
  | tooLarge | serialization
  deriving DecidableEq

/-- JSON lengths of a Task record. A record without a result fits its envelope, and a terminal
without a result has a canonical form. -/
class TaskCodec extends ReceiptCodec where
  recordLength : V5StoredInvocationRecord → Nat
  canonicalResultSize : String → Except CanonicalResultSizeError Nat
  recordLength_le : ∀ record : V5StoredInvocationRecord, record.task.status ≠ .completed →
    recordLength record ≤ maxTaskRecordBytes
  terminalDigest_isSome : ∀ outcome : ReceiptTerminalOutcome, (∀ result, outcome ≠ .completed result) →
    (terminalDigest outcome).isSome

/-- A codec that can be computed with: every length is constant and an identifier is its own
digest. -/
@[reducible] def plainCodec : TaskCodec where
  receiptKeyDigest key := key.invocationId
  taskLinkDigest link := link.taskId
  terminalDigest _ := some 7
  rowLength _ := 100
  wireFrameLength _ _ _ := 100
  batchLength rows := 100 * rows.length
  rowLength_pos _ := by decide
  recordLength _ := 100
  canonicalResultSize _ := .ok 100
  recordLength_le _ _ := by decide
  terminalDigest_isSome _ _ := rfl

/-- The timestamps a record must keep in order. -/
structure V5StoredInvocationRecord.Ordered (record : V5StoredInvocationRecord) : Prop where
  version_pos : 0 < record.version
  created_le_updated : record.createdAtEpochMs ≤ record.updatedAtEpochMs
  terminal_within : ∀ epoch ∈ record.task.terminalEpochMs,
    record.createdAtEpochMs ≤ epoch ∧ epoch ≤ record.updatedAtEpochMs

variable {record : V5StoredInvocationRecord}

section Validation

variable [TaskCodec]

def validateResult : V5StoredTask → Except V5TaskStoreError Unit
  | .completed _ _ result =>
      match TaskCodec.canonicalResultSize result with
      | .ok _ => .ok ()
      | .error .tooLarge => .error (.recordTooLarge maxTaskRecordBytes)
      | .error .serialization => .error (.corrupt "canonical task result could not be serialized")
  | _ => .ok ()

def validateRecord (record : V5StoredInvocationRecord) : Except V5TaskStoreError Unit := do
  refuseIf (record.version = 0) (.corrupt "task record version must be nonzero")
  refuseIf (record.updatedAtEpochMs < record.createdAtEpochMs)
    (.corrupt "task record timestamp moved backwards")
  refuseIf (record.task.terminalEpochMs.any fun epoch =>
      decide (epoch < record.createdAtEpochMs) || decide (record.updatedAtEpochMs < epoch))
    (.corrupt "task terminal timestamp is outside the record lifetime")
  validateResult record.task

theorem validateRecord_eq_ok :
    validateRecord record = .ok () ↔ record.Ordered ∧ validateResult record.task = .ok () := by
  constructor
  · intro h
    obtain ⟨hversion, h⟩ := refuseIf_bind_eq_ok.mp h
    obtain ⟨hupdated, h⟩ := refuseIf_bind_eq_ok.mp h
    obtain ⟨hterminal, h⟩ := refuseIf_bind_eq_ok.mp h
    refine ⟨⟨Nat.pos_of_ne_zero hversion, Nat.le_of_not_lt hupdated, fun epoch hepoch => ?_⟩, h⟩
    rw [mem_def] at hepoch
    simp only [hepoch, any_some, Bool.or_eq_true, decide_eq_true_eq, not_or, not_lt] at hterminal
    exact hterminal
  · rintro ⟨⟨hversion, hupdated, hterminal⟩, hresult⟩
    refine refuseIf_bind_eq_ok.mpr ⟨hversion.ne', refuseIf_bind_eq_ok.mpr
      ⟨Nat.not_lt_of_le hupdated, refuseIf_bind_eq_ok.mpr ⟨?_, hresult⟩⟩⟩
    cases hepoch : record.task.terminalEpochMs with
    | none => simp
    | some epoch =>
      have := hterminal epoch (by rw [hepoch]; rfl)
      simp only [any_some, Bool.or_eq_true, decide_eq_true_eq, not_or, not_lt]
      exact this

end Validation

namespace V5TaskIdentity

theorem matchesRecord_iff {identity : V5TaskIdentity} :
    identity.matchesRecord record = true ↔ identity = record.identity := by
  obtain ⟨task, invocation, digest⟩ := identity
  simp [matchesRecord, V5StoredInvocationRecord.identity, and_assoc]

end V5TaskIdentity

@[simp] theorem V5TerminalPublication.isTerminal_intoStoredTask (p : V5TerminalPublication) :
    p.intoStoredTask.isTerminal = true := by
  cases p <;> rfl

theorem V5TerminalPublication.matchesTask_iff {p : V5TerminalPublication} {task : V5StoredTask} :
    p.matchesTask task = true ↔ task = p.intoStoredTask := by
  cases p <;> cases task <;> simp [matchesTask, intoStoredTask]
  · exact ⟨fun h => ⟨h.1.1.symm, h.1.2.symm, h.2.symm⟩, fun h => ⟨⟨h.1.symm, h.2.1.symm⟩, h.2.2.symm⟩⟩
  · exact ⟨fun h => ⟨h.1.1.symm, h.1.2.symm, h.2.symm⟩, fun h => ⟨⟨h.1.symm, h.2.1.symm⟩, h.2.2.symm⟩⟩
  · exact ⟨fun h => ⟨h.1.symm, h.2.symm⟩, fun h => ⟨h.1.symm, h.2.symm⟩⟩

end Unica.Task
