import Unica.Projection.Stores

/-!
# Startup

A new process opens both stores, compares every link with its record and only then
changes anything: each active Task becomes terminal, record first, link second, and a
record that already is terminal gets its link. A pair the comparison does not accept
stops the process.
-/

namespace Unica.Projection

open Lib Receipt Unica.Task Link Prog V5TaskProjectionFailure

/-- The clock a startup reads when it terminalizes a Task. -/
abbrev Clock := TaskId → EpochMs

structure StartupTaskTerminalizationPlan [ReceiptCodec] where
  expected : TaskBoundReceipt
  record : V5StoredInvocationRecord
  reason : Option RecoveryTerminalReason
  deriving DecidableEq

section Recovery

variable [TaskCodec]

def recoveryTerminal (task : V5StoredTask) :
    Except V5TaskProjectionFailure (ClosedTerminalStatus × TerminalDigest × EpochMs) :=
  match task with
  | .failed epoch digest _ => .ok (.failed, digest, epoch)
  | .cancelled epoch digest => .ok (.cancelled, digest, epoch)
  | _ => .error (stop (.corrupt "recovery terminalization returned a non-recovery Task state"))

/-- The link of a terminal record. -/
def publishTerminalLink (expected : TaskBoundReceipt) (record : V5StoredInvocationRecord)
    (terminal : ClosedTerminalStatus × TerminalDigest × EpochMs) :
    ProjectionM TaskTerminalBoundReceipt := do
  let task ← lift (receiptTaskProjectionFromStore record)
  onLinks (publishTaskTerminalBound expected task record.version terminal.1 terminal.2.1 terminal.2.2)

def completeRecoveredTerminalBound (expected : TaskBoundReceipt) (terminal : V5StoredInvocationRecord) :
    ProjectionM TaskTerminalBoundReceipt := do
  let closed ← lift (okOr (startupFailStop "terminal Task reconciliation received an active Task")
    (closedTerminal terminal.task))
  publishTerminalLink expected terminal closed

def terminalizeRecoveredBound (expected : TaskBoundReceipt) (record : V5StoredInvocationRecord)
    (reason : RecoveryTerminalReason) (now : EpochMs) : ProjectionM TaskTerminalBoundReceipt := do
  let terminal ← onTasks record.receiptKeyDigest
    (terminalizeRecoveredExact record.identity record.version reason now)
  let closed ← lift (recoveryTerminal terminal.task)
  publishTerminalLink expected terminal closed

/-- Why an active Task ends at startup. -/
def startupReason (phase : AttemptPhase) (record : V5StoredInvocationRecord) :
    Except V5TaskProjectionFailure RecoveryTerminalReason :=
  match phase with
  | .notBegun => .ok (if record.cancelRequested then .cancelled else .interruptedBeforeExecution)
  | .begun =>
      if record.task = .working then .ok .outcomeUncertain
      else .error (startupFailStop "TaskBound Begun requires exact Working Task")

def preflightTaskBoundStartup (expected : TaskBoundReceipt) (record : V5StoredInvocationRecord) :
    Except V5TaskProjectionFailure StartupTaskTerminalizationPlan := do
  refuseIf (¬ taskBoundMatchesRecord expected record)
    (startupFailStop "TaskBound does not authorize the exact active Task")
  if record.task.isTerminal then pure ⟨expected, record, none⟩
  else do
    let reason ← startupReason expected.phase record
    pure ⟨expected, record, some reason⟩

end Recovery

/-! ## Comparing the stores -/

section Scan

variable [TaskCodec]

def catalogSnapshot : LinkM (List LinkEntry) := do
  Link.checkDeadline
  Link.lockWriter
  Link.verifyRootAuthority
  Link.checkDeadline
  let s ← get
  pure (s.memory.entries.sortedKeys.filterMap s.memory.entries.lookup)

/-- The records of the opening's list, read again. -/
def rereadRecovered : List V5TaskRecoveryEntry → Table TaskId V5StoredInvocationRecord →
    ProjectionM (Table TaskId V5StoredInvocationRecord)
  | [], found => pure found
  | entry :: rest, found => do
      let record ← onTasks entry.identity.receiptKeyDigest (readRecord entry.identity.taskId)
      lift (refuseIf (¬ entry.identity.matchesRecord record)
        (startupFailStop "TaskStore recovery identity changed before startup reconciliation"))
      lift (refuseIf (found.lookup entry.identity.taskId).isSome
        (startupFailStop "TaskStore recovery catalog contains a duplicate Task identity"))
      rereadRecovered rest (found.insert entry.identity.taskId record)

/-- What the pass over the links has seen: the Tasks with a link, the records without one so far,
and what is to be done. -/
structure StartupScan where
  linked : Finset TaskId
  recovered : Table TaskId V5StoredInvocationRecord
  plans : List StartupTaskTerminalizationPlan

/-- A committed retirement permits an absent record. -/
def permitsAbsence : TaskLifecycleLinkRecord → Bool
  | .taskRetirementPending _ => true
  | _ => false

def linkedRecord (link : TaskLifecycleLinkRecord) (recovered : Table TaskId V5StoredInvocationRecord) :
    ProjectionM (Option V5StoredInvocationRecord) := do
  let taskId := link.header.key.reservedTaskId
  let keyDigest := receiptKeyDigest link.header.key
  match recovered.lookup taskId with
  | some record => pure (some record)
  | none => do
      match ← onTasks keyDigest (readRecord taskId).reify with
      | .ok record => pure (some record)
      | .error (.notFound missing) =>
          if permitsAbsence link then pure none else throw (fromTaskStore keyDigest (.notFound missing))
      | .error e => throw (fromTaskStore keyDigest e)

/-- The plan of an active link; a terminal link must confirm its record. -/
def confirmLink (link : TaskLifecycleLinkRecord) (record : V5StoredInvocationRecord) :
    Except V5TaskProjectionFailure (List StartupTaskTerminalizationPlan) :=
  match link with
  | .taskBound expected => do
      let plan ← preflightTaskBoundStartup expected record
      pure [plan]
  | .taskTerminalBound expected => do
      let confirmed ← taskTerminalBoundMatchesRecord expected record
      refuseIf (¬ confirmed) (startupFailStop "TaskTerminalBound does not confirm the exact terminal Task")
      pure []
  | .taskRetirementPending expected => do
      let confirmed ← taskRetirementPendingMatchesRecord expected record
      refuseIf (¬ confirmed)
        (startupFailStop "TaskRetirementPending does not confirm the exact terminal Task")
      pure []

def StartupScan.see (scan : StartupScan) (taskId : TaskId) (plans : List StartupTaskTerminalizationPlan) :
    StartupScan where
  linked := insert taskId scan.linked
  recovered := scan.recovered.erase taskId
  plans := scan.plans ++ plans

def inspectLink (link : TaskLifecycleLinkRecord) (scan : StartupScan) : ProjectionM StartupScan := do
  let taskId := link.header.key.reservedTaskId
  lift (refuseIf (taskId ∈ scan.linked) (startupFailStop "Task has more than one lifecycle link"))
  match ← linkedRecord link scan.recovered with
  | none => pure (scan.see taskId [])
  | some record => do
      let plans ← lift (confirmLink link record)
      pure (scan.see taskId plans)

def inspectLinks : List LinkEntry → StartupScan → ProjectionM StartupScan
  | [], scan => pure scan
  | .reservation _ :: rest, scan => inspectLinks rest scan
  | .link link :: rest, scan => do
      let scan ← inspectLink link scan
      inspectLinks rest scan

def scanStores (recovery : List V5TaskRecoveryEntry) :
    ProjectionM (List StartupTaskTerminalizationPlan) := do
  let lifecycle ← onLinks catalogSnapshot
  let recovered ← rereadRecovered recovery ∅
  let scan ← inspectLinks lifecycle ⟨∅, recovered, []⟩
  lift (refuseIf (scan.recovered ≠ ∅) (startupFailStop "TaskStore Task has no exact lifecycle link"))
  pure scan.plans

def carryOut (clock : Clock) (plan : StartupTaskTerminalizationPlan) :
    ProjectionM TaskTerminalBoundReceipt :=
  match plan.reason with
  | some reason => terminalizeRecoveredBound plan.expected plan.record reason (clock plan.record.taskId)
  | none => completeRecoveredTerminalBound plan.expected plan.record

def carryOutAll (clock : Clock) : List StartupTaskTerminalizationPlan → ProjectionM Unit
  | [] => pure ()
  | plan :: rest => do
      let _ ← carryOut clock plan
      carryOutAll clock rest

def reconcileMaterializedStartup (clock : Clock) (recovery : List V5TaskRecoveryEntry) :
    ProjectionM Unit := do
  let plans ← scanStores recovery
  carryOutAll clock plans

/-- Why a process does not start. The source reports a text. -/
inductive StartupRefusal where
  | tasks (error : V5TaskStoreError)
  | links (error : LinkStoreError)
  | projection (failure : V5TaskProjectionFailure)
  deriving DecidableEq

abbrev StartupM := Prog Stores StartupRefusal

/-- `V5TaskProjection::open`. -/
def openStores : StartupM (List V5TaskRecoveryEntry) := do
  let recovery ← openInspectOnly.within Stores.tasks Stores.setTasks .tasks
  openLinkStore.within Stores.links Stores.setLinks .links
  pure recovery

/-- The start of a process that finds no receipt to recover. -/
def startup (clock : Clock) : StartupM Unit := do
  let recovery ← openStores
  (reconcileMaterializedStartup clock recovery).within id (fun s _ => s) .projection

end Scan

end Unica.Projection
