import Unica.Task.Record
import Unica.Lib.Update

/-!
# The Task store

A directory with one file per Task, written by one process at a time. Every operation
that writes holds the writer lock for its whole length, so an operation is one program.
A record is staged beside its file and renamed over it; a file is removed by renaming it
to a quarantine name and unlinking that. Each call of the file system and each deadline
check is a fallible step.
-/

namespace Unica.Task

open Lib Receipt Prog

/-- The store's directory and the ids its writer knows. Staged files and quarantined files have
fresh names of no other meaning and are counted. -/
structure TaskStore where
  records : Table TaskId V5StoredInvocationRecord
  known : Finset TaskId
  staging : Nat
  quarantined : Nat

open TaskStore

abbrev TaskM := Prog TaskStore V5TaskStoreError

namespace TaskStore

/-- The root of a new installation. -/
def empty : TaskStore := ⟨∅, ∅, 0, 0⟩

def stage (s : TaskStore) : TaskStore := { s with staging := s.staging + 1 }

def unstage (s : TaskStore) : TaskStore := { s with staging := s.staging - 1 }

def quarantine (s : TaskStore) : TaskStore := { s with quarantined := s.quarantined + 1 }

def unlink (s : TaskStore) : TaskStore := { s with quarantined := s.quarantined - 1 }

/-- The staged file now has the record's name. -/
def put (record : V5StoredInvocationRecord) (s : TaskStore) : TaskStore :=
  { s with records := s.records.insert record.taskId record, staging := s.staging - 1 }

def hide (taskId : TaskId) (s : TaskStore) : TaskStore := { s with records := s.records.erase taskId }

def know (taskId : TaskId) (s : TaskStore) : TaskStore := { s with known := insert taskId s.known }

def forget (taskId : TaskId) (s : TaskStore) : TaskStore := { s with known := s.known.erase taskId }

end TaskStore

def checkDeadline : TaskM Unit := attempt .deadlineExceeded

def io (operation : String) : TaskM Unit := attempt (.storage operation)

/-- The deadline is checked while the lock is awaited and once it is held. -/
def lockWriter : TaskM Unit := do
  checkDeadline
  checkDeadline

def verifyRootAuthority : TaskM Unit := do
  io "validate protocol-v5 task root"
  io "verify protocol-v5 task root ownership"

/-- `remove_state_regular_child`: the file is renamed to a quarantine name, which is then observed
and unlinked. -/
def removeStateRegularChild (taken : TaskStore → TaskStore) (operation : String) : TaskM Unit := do
  io operation
  modify fun s => (taken s).quarantine
  io operation
  modify unlink

def discardStaging : TaskM Unit := removeStateRegularChild unstage "discard staging"

section Operations

variable [TaskCodec]

def readCommittedFrom (taskId : TaskId) : TaskM V5StoredInvocationRecord := do
  io "open protocol-v5 task record"
  let s ← get
  let record ← lift (okOr (.notFound taskId) (s.records.lookup taskId))
  io "verify protocol-v5 task record ownership"
  io "read protocol-v5 task record"
  lift (refuseIf (maxTaskRecordBytes < TaskCodec.recordLength record)
    (.recordTooLarge maxTaskRecordBytes))
  lift (validateRecord record)
  lift (refuseIf (record.taskId ≠ taskId)
    (.corrupt "task record identity does not match its file name"))
  pure record

def readRecord (taskId : TaskId) : TaskM V5StoredInvocationRecord := do
  checkDeadline
  verifyRootAuthority
  let record ← readCommittedFrom taskId
  checkDeadline
  verifyRootAuthority
  pure record

def serializeRecordBounded (record : V5StoredInvocationRecord) : TaskM Unit := do
  checkDeadline
  lift (refuseIf (maxTaskRecordBytes < TaskCodec.recordLength record)
    (.recordTooLarge maxTaskRecordBytes))
  io "serialize protocol-v5 task record"
  checkDeadline

/-- A creation never replaces a file. -/
def renameStaged (record : V5StoredInvocationRecord) (operation : V5CommitOperation) : TaskM Unit := do
  io "publish protocol-v5 task record"
  let s ← get
  lift (refuseIf (operation = .create ∧ (s.records.lookup record.taskId).isSome)
    (.mismatch record.taskId .existingRecord))

def stageRecord (record : V5StoredInvocationRecord) : TaskM Unit := do
  checkDeadline
  verifyRootAuthority
  io "create protocol-v5 task staging file"
  modify stage
  io "identify protocol-v5 task staging file"
  (io "restrict protocol-v5 task staging file").cleaningUp discardStaging
  (serializeRecordBounded record).cleaningUp discardStaging
  (io "flush protocol-v5 task staging file").cleaningUp discardStaging
  checkDeadline
  verifyRootAuthority

/-- What follows a visible change: an injected fault, the deadline, the directory sync and the
root's authority. -/
def confirmCommit (taskId : TaskId) (operation : V5CommitOperation) : TaskM Unit := do
  attempt (.commitUncertain taskId operation)
  attempt (.commitUncertain taskId operation)
  attempt (.commitUncertain taskId operation)
  attempt (.commitUncertain taskId operation)

def publishRecord (record : V5StoredInvocationRecord) (operation : V5CommitOperation) : TaskM Unit := do
  lift (validateRecord record)
  stageRecord record
  (renameStaged record operation).cleaningUp discardStaging
  modify fun s => (s.put record).know record.taskId
  confirmCommit record.taskId operation

def deleteTerminalRecord (retirement : V5TaskRetirement) : TaskM Unit := do
  checkDeadline
  verifyRootAuthority
  let taskId := retirement.identity.taskId
  io "retain protocol-v5 terminal task record"
  io "verify protocol-v5 terminal task record ownership"
  io "identify protocol-v5 terminal task record"
  checkDeadline
  verifyRootAuthority
  removeStateRegularChild (hide taskId) "delete protocol-v5 terminal task record"
  modify (forget taskId)
  confirmCommit taskId .deleteTerminal

def validateExact (record : V5StoredInvocationRecord) (identity : V5TaskIdentity)
    (expectedVersion : Nat) : Except V5TaskStoreError Unit := do
  refuseIf (¬ identity.matchesRecord record) (.mismatch identity.taskId .identity)
  refuseIf (record.version ≠ expectedVersion)
    (.mismatch identity.taskId (.version expectedVersion record.version))

def nextVersion (record : V5StoredInvocationRecord) : Except V5TaskStoreError Nat :=
  okOr (.corrupt "task record version overflow") (checkedAdd wordBound record.version 1)

def createExact (new : NewV5InvocationRecord) (now : EpochMs) : TaskM V5StoredInvocationRecord := do
  lockWriter
  let taskId := new.identity.taskId
  let s ← get
  if taskId ∈ s.known then do
    let existing ← readRecord taskId
    lift (refuseIf (¬ new.matchesRecord existing) (.mismatch taskId .existingRecord))
    pure existing
  else do
    let record := new.intoStored now
    publishRecord record .create
    pure record

def requestCancelExact (identity : V5TaskIdentity) (expectedVersion : Nat) (now : EpochMs) :
    TaskM V5StoredInvocationRecord := do
  lockWriter
  let record ← readRecord identity.taskId
  lift (validateExact record identity expectedVersion)
  if record.cancelRequested then pure record
  else do
    let version ← lift (nextVersion record)
    let record := { record with
      cancelRequested := true
      version := version
      updatedAtEpochMs := max record.updatedAtEpochMs now }
    publishRecord record .requestCancel
    pure record

def startWorkingIfNotCancelRequested (identity : V5TaskIdentity) (expectedVersion : Nat)
    (now : EpochMs) : TaskM V5StartWorkingOutcome := do
  lockWriter
  let record ← readRecord identity.taskId
  lift (refuseIf (¬ identity.matchesRecord record) (.mismatch identity.taskId .identity))
  if record.cancelRequested ∨ record.task.isTerminal then pure (.cancelOrTerminalWinner record)
  else do
    lift (validateExact record identity expectedVersion)
    lift (refuseIf (record.task ≠ .queued) (.mismatch identity.taskId .state))
    let version ← lift (nextVersion record)
    let record := { record with
      task := .working
      version := version
      updatedAtEpochMs := max record.updatedAtEpochMs now }
    publishRecord record .startWorking
    pure (.started record)

/-- The states a terminal of the status may follow. -/
def stateAcceptsPublication (record : V5StoredInvocationRecord) : V5TaskStatus → Bool
  | .completed | .failed => decide (record.task = .working)
  | .cancelled => (decide (record.task = .queued) || decide (record.task = .working))
      && record.cancelRequested
  | .queued | .working => false

def publishTerminalExact (identity : V5TaskIdentity) (expectedVersion : Nat)
    (publication : V5TerminalPublication) : TaskM V5StoredInvocationRecord := do
  lockWriter
  let record ← readRecord identity.taskId
  lift (refuseIf (¬ identity.matchesRecord record) (.mismatch identity.taskId .identity))
  if record.task.isTerminal then do
    -- the exact successor of the expected version is this publication, committed before
    lift (refuseIf (¬ (checkedAdd wordBound expectedVersion 1 = some record.version
        ∧ publication.matchesTask record.task)) (.mismatch identity.taskId .state))
    pure record
  else do
    lift (validateExact record identity expectedVersion)
    lift (refuseIf (¬ stateAcceptsPublication record publication.status)
      (.mismatch identity.taskId .state))
    lift (refuseIf (publication.terminalEpochMs < record.updatedAtEpochMs)
      (.mismatch identity.taskId .state))
    let version ← lift (nextVersion record)
    let record := { record with
      task := publication.intoStoredTask
      version := version
      updatedAtEpochMs := publication.terminalEpochMs }
    publishRecord record .publishTerminal
    pure record

def publishStagedTerminalAgainstExactProvisional (expected : V5StoredInvocationRecord)
    (publication : V5TerminalPublication) : TaskM V5StoredInvocationRecord := do
  lockWriter
  let observed ← readRecord expected.taskId
  lift (refuseIf (expected.task.isTerminal ∨ publication.terminalEpochMs < expected.updatedAtEpochMs)
    (.mismatch expected.taskId .state))
  let version ← lift (nextVersion expected)
  let successor := { expected with
    task := publication.intoStoredTask
    version := version
    updatedAtEpochMs := publication.terminalEpochMs }
  if observed = successor then pure observed
  else do
    lift (refuseIf (observed ≠ expected) (.mismatch expected.taskId .state))
    publishRecord successor .publishTerminal
    pure successor

namespace RecoveryTerminalReason

def outcome : RecoveryTerminalReason → ReceiptTerminalOutcome
  | cancelled => .cancelled
  | interruptedBeforeExecution => .failed .interrupted
  | outcomeUncertain => .failed .outcomeUncertain

/-- A terminal this reason already gave. -/
def matchesTask : RecoveryTerminalReason → V5StoredTask → Bool
  | cancelled, .cancelled .. => true
  | interruptedBeforeExecution, .failed _ _ reason => decide (reason = .interrupted)
  | outcomeUncertain, .failed _ _ reason => decide (reason = .outcomeUncertain)
  | _, _ => false

def validState (record : V5StoredInvocationRecord) : RecoveryTerminalReason → Bool
  | cancelled => record.cancelRequested
      && (decide (record.task = .queued) || decide (record.task = .working))
  | interruptedBeforeExecution => decide (record.task = .queued) || decide (record.task = .working)
  | outcomeUncertain => decide (record.task = .working)

def storedTask (terminalEpochMs : EpochMs) (terminalDigest : TerminalDigest) :
    RecoveryTerminalReason → V5StoredTask
  | cancelled => .cancelled terminalEpochMs terminalDigest
  | interruptedBeforeExecution => .failed terminalEpochMs terminalDigest .interrupted
  | outcomeUncertain => .failed terminalEpochMs terminalDigest .outcomeUncertain

end RecoveryTerminalReason

def terminalizeRecoveredExact (identity : V5TaskIdentity) (expectedVersion : Nat)
    (reason : RecoveryTerminalReason) (now : EpochMs) : TaskM V5StoredInvocationRecord := do
  lockWriter
  let record ← readRecord identity.taskId
  lift (refuseIf (¬ identity.matchesRecord record) (.mismatch identity.taskId .identity))
  if record.task.isTerminal then do
    lift (refuseIf (¬ (checkedAdd wordBound expectedVersion 1 = some record.version
        ∧ reason.matchesTask record.task)) (.mismatch identity.taskId .state))
    pure record
  else do
    lift (validateExact record identity expectedVersion)
    lift (refuseIf (¬ reason.validState record) (.mismatch identity.taskId .state))
    let digest ← lift (okOr (.corrupt "canonical recovery terminal could not be encoded")
      (ReceiptCodec.terminalDigest reason.outcome))
    let version ← lift (nextVersion record)
    let record := { record with
      task := reason.storedTask now digest
      version := version
      updatedAtEpochMs := max record.updatedAtEpochMs now }
    publishRecord record .publishTerminal
    pure record

/-- An absent record is the answer of a retirement that is already done. -/
def deleteTerminalIfExpired (retirement : V5TaskRetirement) (observedAtEpochMs : EpochMs) :
    TaskM V5DeleteTerminalOutcome := do
  lockWriter
  let taskId := retirement.identity.taskId
  match ← (readRecord taskId).reify with
  | .error (.notFound _) => pure (.alreadyAbsent retirement)
  | .error e => throw e
  | .ok record => do
      lift (refuseIf (¬ retirement.identity.matchesRecord record) (.mismatch taskId .identity))
      lift (refuseIf (record.version ≠ retirement.expectedTerminalVersion)
        (.mismatch taskId (.version retirement.expectedTerminalVersion record.version)))
      lift (refuseIf (¬ (record.task.isTerminal ∧ retirement.matchesTerminalRecord record
          ∧ (checkedSub observedAtEpochMs record.updatedAtEpochMs).any (record.ttlMs ≤ ·)))
        (.mismatch taskId .state))
      deleteTerminalRecord retirement
      pure (.deleted retirement)

/-- The records of the directory, each read and noted. -/
def inspectRecords : List TaskId → TaskM (List V5TaskRecoveryEntry)
  | [] => pure []
  | taskId :: rest => do
      checkDeadline
      let record ← readCommittedFrom taskId
      modify (know taskId)
      let entries ← inspectRecords rest
      pure (.fromRecord record :: entries)

def removeAbandonedStaging : Nat → TaskM Unit
  | 0 => pure ()
  | count + 1 => do
      checkDeadline
      io "reopen abandoned protocol-v5 staging"
      verifyRootAuthority
      removeStateRegularChild unstage "remove abandoned protocol-v5 task staging entry"
      removeAbandonedStaging count

/-- `open_retained_directory_inspect_only`: a new handle knows what its directory holds. A name that
is neither a record nor a staged file is refused. -/
def openInspectOnly : TaskM (List V5TaskRecoveryEntry) := do
  modify fun s => { s with known := ∅ }
  checkDeadline
  io "acquire protocol-v5 task ownership lock"
  lockWriter
  verifyRootAuthority
  io "enumerate protocol-v5 task root"
  let s ← get
  lift (refuseIf (0 < s.quarantined) (.corrupt "task root entry has an unsupported name"))
  let entries ← inspectRecords s.records.sortedKeys
  removeAbandonedStaging s.staging
  io "sync protocol-v5 task staging cleanup"
  verifyRootAuthority
  pure entries

end Operations

end Unica.Task
