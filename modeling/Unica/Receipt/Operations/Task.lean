import Unica.Receipt.Operations.Admission

/-!
# Receipts that become Tasks

Promising a Task, handing it over to the Task store, keeping it in the receipt
where the Task store has no room, cancelling it and publishing its terminal.
-/

namespace Unica.Receipt

open Lib Lib.Prog

variable [ReceiptCodec]

/-- A successor row of the receipt of a key. -/
def taskRecord (key : ReceiptKey) (mutationSequence : Nat) (recordVersion : ReceiptVersion)
    (lifecycle : StoredActiveLifecycle) : StoredActiveReceipt :=
  { schemaVersion := receiptRecordSchemaVersion
    mutationSequence, recordVersion, key
    keyDigest := receiptKeyDigest key, lifecycle }

/-- Commit the successor with the next version and sequence. -/
def advanceReceipt (key : ReceiptKey) (persisted : CatalogEntry) (lifecycle : StoredActiveLifecycle)
    (maximumEncodedBytes : Nat) : Ledger EncodedRecord := do
  let version ← compute (nextRecordVersion persisted.record.recordVersion)
  let sequence ← nextMutationSequence
  replaceRow persisted (taskRecord key sequence version lifecycle) maximumEncodedBytes

/-- A fresh Task projection: created now, never updated, version one. -/
def newTask (key : ReceiptKey) (createdAtEpochMs : EpochMs) (ttlMs pollIntervalMs : Nat) :
    Except ReceiptLedgerError ReceiptTaskProjection :=
  ReceiptTaskProjection.new
    ⟨key.reservedTaskId, key.invocationId, createdAtEpochMs, createdAtEpochMs, ttlMs, pollIntervalMs, 1⟩

def promisedUnboundLifecycle (persisted : CatalogEntry) (task : ReceiptTaskProjection) :
    Except ReceiptLedgerError StoredActiveLifecycle := do
  let reserved ← persisted.reservation
  refuseIf (reserved.phase ≠ .unbound) .receiptRowPresentUnsupported
  pure (.taskPromisedUnbound reserved.originalCutoff task.toStoredTask reserved.cancelRequested)

def promiseTaskUnbound (key : ReceiptKey) (expectedVersion : ReceiptVersion)
    (createdAtEpochMs : EpochMs) (ttlMs pollIntervalMs : Nat) : Ledger TaskPromisedUnboundReceipt := do
  checkDeadline
  let task ← compute (newTask key createdAtEpochMs ttlMs pollIntervalMs)
  enter
  let persisted ← readExactEntry key
  checkVersion persisted expectedVersion
  let lifecycle ← compute (promisedUnboundLifecycle persisted task)
  let r ← advanceReceipt key persisted lifecycle maxTaskRecordEnvelopeBytes
  let committed ← committedEntry r.record.keyDigest
  match ← compute committed.state with
  | .taskPromisedUnbound receipt => pure receipt
  | _ => throw (.commitUncertain r.record.keyDigest)

def linkOf (key : ReceiptKey) (task : ReceiptTaskProjection) (workspaceIdentityHash : SafeIdentityHash) :
    TaskLinkIdentity :=
  ⟨receiptKeyDigest key, task.taskId, task.invocationId, workspaceIdentityHash⟩

def promisedActorBoundLifecycle (key : ReceiptKey) (persisted : CatalogEntry)
    (workspaceIdentityHash : SafeIdentityHash) : Except ReceiptLedgerError StoredActiveLifecycle :=
  match persisted.record.lifecycle with
  | .taskPromisedUnbound originalCutoff .. => do
      match ← persisted.state with
      | .taskPromisedUnbound promised =>
          pure (.taskPromisedActorBound originalCutoff promised.task.toStoredTask workspaceIdentityHash
            (ReceiptCodec.taskLinkDigest (linkOf key promised.task workspaceIdentityHash))
            promised.cancelRequested)
      | _ => .error .receiptRowPresentUnsupported
  | _ => .error .receiptRowPresentUnsupported

def bindPromisedTaskActor (key : ReceiptKey) (expectedVersion : ReceiptVersion)
    (workspaceIdentityHash : SafeIdentityHash) : Ledger TaskPromisedActorBoundReceipt := do
  checkDeadline
  enter
  let persisted ← readExactEntry key
  checkVersion persisted expectedVersion
  let lifecycle ← compute (promisedActorBoundLifecycle key persisted workspaceIdentityHash)
  let r ← advanceReceipt key persisted lifecycle maxTaskRecordEnvelopeBytes
  let committed ← committedEntry r.record.keyDigest
  match ← compute committed.state with
  | .taskPromisedActorBound receipt => pure receipt
  | _ => throw (.commitUncertain r.record.keyDigest)

/-- The cutoff, workspace, attempt and cancellation a handoff takes over. -/
def handoffOrigin (lifecycle : StoredActiveLifecycle) :
    Option (OriginalCutoffDescriptor × SafeIdentityHash × AttemptPhase × Bool) :=
  match lifecycle with
  | .reservedActorBound _ cutoff workspace cancel => some (cutoff, workspace, .notBegun, cancel)
  | .reservedBegun _ cutoff workspace cancel => some (cutoff, workspace, .begun, cancel)
  | .taskPromisedActorBound cutoff _ workspace _ cancel => some (cutoff, workspace, .notBegun, cancel)
  | _ => none

def handoffLifecycle (key : ReceiptKey) (persisted : CatalogEntry) (task : ReceiptTaskProjection) :
    Except ReceiptLedgerError StoredActiveLifecycle := do
  let (cutoff, workspace, phase, cancel) ← okOr .receiptRowPresentUnsupported
    (handoffOrigin persisted.record.lifecycle)
  pure (.taskHandoffActorBound cutoff task.toStoredTask workspace
    (ReceiptCodec.taskLinkDigest (linkOf key task workspace)) phase cancel .noTerminal)

def beginBoundTaskHandoff (key : ReceiptKey) (expectedVersion : ReceiptVersion)
    (createdAtEpochMs : EpochMs) (ttlMs pollIntervalMs : Nat) :
    Ledger TaskHandoffActorBoundReceipt := do
  checkDeadline
  let task ← compute (newTask key createdAtEpochMs ttlMs pollIntervalMs)
  enter
  let persisted ← readExactEntry key
  checkVersion persisted expectedVersion
  let lifecycle ← compute (handoffLifecycle key persisted task)
  let r ← advanceReceipt key persisted lifecycle maxTaskRecordEnvelopeBytes
  let committed ← committedEntry r.record.keyDigest
  match ← compute committed.state with
  | .taskHandoffActorBound receipt => pure receipt
  | _ => throw (.commitUncertain r.record.keyDigest)

/-- What the Task store must confirm about an unstaged handoff. -/
def unstagedHandoff (state : ReceiptState) :
    Except ReceiptLedgerError (TaskLinkIdentity × ReceiptTaskProjection × AttemptPhase × Bool) :=
  match state with
  | .taskPromisedActorBound promised =>
      .ok (promised.link, promised.task, .notBegun, promised.cancelRequested)
  | .taskHandoffActorBound handoff =>
      match handoff.terminalStage with
      | .staged .. => .error .receiptRowPresentUnsupported
      | .noTerminal => .ok (handoff.link, handoff.task, handoff.phase, handoff.cancelRequested)
  | _ => .error .receiptRowPresentUnsupported

/-- The confirmed Task is the one handed over. A cancelled Task may have advanced once. -/
def confirmedTaskMatches (expected confirmed : ReceiptTaskProjection) (phase : AttemptPhase)
    (cancelRequested : Bool) : Prop :=
  confirmed.taskId = expected.taskId ∧ confirmed.invocationId = expected.invocationId
    ∧ confirmed.createdAtEpochMs = expected.createdAtEpochMs ∧ confirmed.ttlMs = expected.ttlMs
    ∧ confirmed.pollIntervalMs = expected.pollIntervalMs
    ∧ if cancelRequested then
        (phase = .begun ∧ confirmed = expected)
          ∨ (checkedAdd wordBound expected.version 1 = some confirmed.version
            ∧ expected.updatedAtEpochMs ≤ confirmed.updatedAtEpochMs)
      else confirmed = expected

instance (expected confirmed : ReceiptTaskProjection) (phase : AttemptPhase) (cancelRequested : Bool) :
    Decidable (confirmedTaskMatches expected confirmed phase cancelRequested) := by
  unfold confirmedTaskMatches
  infer_instance

/-- A confirmation agrees with the receipt it retires. -/
def confirmationMatches (key : ReceiptKey) (confirmed : TaskBoundReceipt) (link : TaskLinkIdentity)
    (task : ReceiptTaskProjection) (phase : AttemptPhase) (cancelRequested : Bool) : Prop :=
  confirmed.record.key = key ∧ confirmed.record.link = link
    ∧ confirmedTaskMatches task confirmed.task phase cancelRequested ∧ confirmed.phase = phase

instance (key : ReceiptKey) (confirmed : TaskBoundReceipt) (link : TaskLinkIdentity)
    (task : ReceiptTaskProjection) (phase : AttemptPhase) (cancelRequested : Bool) :
    Decidable (confirmationMatches key confirmed link task phase cancelRequested) :=
  inferInstanceAs (Decidable (_ ∧ _))

/-- Retire a receipt through the given witness. -/
def retireThroughWitness (persisted : CatalogEntry)
    (build : Nat → Except ReceiptLedgerError StoredActiveReceipt) : Ledger Unit := do
  let sequence ← nextMutationSequence
  let record ← orLatch (build sequence)
  let witness ← orReject (serializeReservedRecord record maxCompletedTaskHandoffWitnessBytes)
  let w ← get
  orLatch (validateCatalogRemove w.catalog persisted)
  commitRemoval persisted witness

def completeBoundTaskHandoff (key : ReceiptKey) (expectedVersion : ReceiptVersion)
    (confirmedTaskBound : TaskBoundReceipt) : Ledger TaskBoundReceipt := do
  checkDeadline
  lockCatalog
  refuseUnavailable
  checkDeadline
  latchCatalogResult verifyNamedAuthority
  let w ← get
  let expected ← orReject (classifyExact key w.catalog)
  let persisted ← readCatalogued (receiptKeyDigest key) expected
  checkVersion persisted expectedVersion
  let state ← orLatch persisted.state
  let (link, task, phase, cancelRequested) ← compute (unstagedHandoff state)
  orReject (refuseIf (¬ confirmationMatches key confirmedTaskBound link task phase cancelRequested)
    .taskBoundMismatch)
  retireThroughWitness persisted
    (buildCompletedTaskHandoffDeletionRecord persisted confirmedTaskBound)
  pure confirmedTaskBound

def stagedTerminalOf (handoff : TaskHandoffActorBoundReceipt) :
    Except ReceiptLedgerError (EpochMs × TerminalDigest) :=
  match handoff.terminalStage with
  | .staged epoch terminal _ => .ok (epoch, terminal.digest)
  | .noTerminal => .error .receiptRowPresentUnsupported

def handoffOf : ReceiptState → Except ReceiptLedgerError TaskHandoffActorBoundReceipt
  | .taskHandoffActorBound handoff => .ok handoff
  | _ => .error .receiptRowPresentUnsupported

/-- A terminal confirmation agrees with the staged terminal. The Task version is not compared. -/
def terminalConfirmationMatches (key : ReceiptKey) (confirmed : TaskTerminalBoundReceipt)
    (handoff : TaskHandoffActorBoundReceipt) (terminalEpochMs : EpochMs)
    (terminalDigest : TerminalDigest) : Prop :=
  confirmed.record.key = key ∧ confirmed.record.link = handoff.link
    ∧ confirmed.task.taskId = handoff.task.taskId
    ∧ confirmed.task.invocationId = handoff.task.invocationId
    ∧ confirmed.task.createdAtEpochMs = handoff.task.createdAtEpochMs
    ∧ confirmed.task.ttlMs = handoff.task.ttlMs
    ∧ confirmed.task.pollIntervalMs = handoff.task.pollIntervalMs
    ∧ confirmed.terminalEpochMs = terminalEpochMs ∧ confirmed.terminalDigest = terminalDigest

instance (key : ReceiptKey) (confirmed : TaskTerminalBoundReceipt)
    (handoff : TaskHandoffActorBoundReceipt) (terminalEpochMs : EpochMs)
    (terminalDigest : TerminalDigest) :
    Decidable (terminalConfirmationMatches key confirmed handoff terminalEpochMs terminalDigest) :=
  inferInstanceAs (Decidable (_ ∧ _))

def completeStagedTaskHandoff (key : ReceiptKey) (expectedVersion : ReceiptVersion)
    (confirmedTerminalBound : TaskTerminalBoundReceipt) : Ledger TaskTerminalBoundReceipt := do
  checkDeadline
  enter
  let persisted ← readExactEntry key
  checkVersion persisted expectedVersion
  let state ← orLatch persisted.state
  let handoff ← compute (handoffOf state)
  let (terminalEpochMs, terminalDigest) ← compute (stagedTerminalOf handoff)
  orReject (refuseIf
    (¬ terminalConfirmationMatches key confirmedTerminalBound handoff terminalEpochMs terminalDigest)
    .taskBoundMismatch)
  retireThroughWitness persisted
    (buildCompletedStagedTaskHandoffDeletionRecord persisted confirmedTerminalBound)
  pure confirmedTerminalBound

/-- What staging finds: the same terminal already staged, or a handoff to stage it on. -/
def stageRequest (handoff : TaskHandoffActorBoundReceipt) (terminalEpochMs : EpochMs)
    (terminal : V5CanonicalTerminal) (certificate : StagedTerminalTransferCertificate) :
    Except ReceiptLedgerError Bool :=
  match handoff.terminalStage with
  | .staged actualEpoch actualTerminal actualCertificate =>
      if actualEpoch = terminalEpochMs ∧ actualTerminal = terminal ∧ actualCertificate = certificate then
        .ok true
      else .error .terminalMismatch
  | .noTerminal => .ok false

def stagedLifecycle (lifecycle : StoredActiveLifecycle) (terminalEpochMs : EpochMs)
    (terminal : V5CanonicalTerminal) : Except ReceiptLedgerError StoredActiveLifecycle :=
  match lifecycle with
  | .taskHandoffActorBound cutoff task workspace link phase cancel _ =>
      .ok (.taskHandoffActorBound cutoff task workspace link phase cancel
        (.staged terminalEpochMs terminal.digest (some terminal.outcome)))
  | _ => .error .receiptRowPresentUnsupported

/-- A committed entry with the terminal that was just written. -/
def CatalogEntry.withResultBody (e : CatalogEntry) (terminal : V5CanonicalTerminal) : CatalogEntry :=
  { e with record := { e.record with lifecycle := e.record.lifecycle.withResultBody terminal.outcome } }

/-- The state of a committed entry, if it has one. -/
def committedState (c : ReceiptCatalog) (digest : ReceiptKeyDigest)
    (restore : CatalogEntry → CatalogEntry) : Option ReceiptState :=
  (c.records.lookup digest).bind fun entry => (restore entry).state.toOption

def stageBoundTaskHandoffTerminal (key : ReceiptKey) (expectedVersion : ReceiptVersion)
    (terminalEpochMs : EpochMs) (terminal : V5CanonicalTerminal)
    (certificate : StagedTerminalTransferCertificate) : Ledger TaskHandoffActorBoundReceipt := do
  checkDeadline
  enter
  let persisted ← readExactEntry key
  let state ← orLatch persisted.state
  let handoff ← compute (handoffOf state)
  if ← compute (stageRequest handoff terminalEpochMs terminal certificate) then pure handoff
  else do
    checkVersion persisted expectedVersion
    compute (refuseIf (certificate.matchesStagedTerminal key (receiptKeyDigest key)
      handoff.link terminalEpochMs terminal = false) .terminalMismatch)
    let lifecycle ← compute (stagedLifecycle persisted.record.lifecycle terminalEpochMs terminal)
    let r ← advanceReceipt key persisted lifecycle maxReceiptEntitlementBytes
    let w ← get
    match committedState w.catalog r.record.keyDigest (·.withResultBody terminal) with
    | some (.taskHandoffActorBound committed) =>
        if committed.terminalStage = .noTerminal then
          latchCatalogError (.commitUncertain r.record.keyDigest)
        else pure committed
    | _ => latchCatalogError (.commitUncertain r.record.keyDigest)

def ownedLifecycle (lifecycle : StoredActiveLifecycle) (capacity : ProvenTaskLinkCapacity) :
    Except ReceiptLedgerError StoredActiveLifecycle :=
  match lifecycle with
  | .taskHandoffActorBound cutoff task workspace link .begun cancel _ =>
      .ok (.taskReceiptOwnedActorBound cutoff task workspace link capacity cancel)
  | _ => .error .receiptRowPresentUnsupported

def retainBegunTaskAfterLinkCapacity (key : ReceiptKey) (expectedVersion : ReceiptVersion)
    (provenLinkCapacity : ProvenTaskLinkCapacity) : Ledger TaskReceiptOwnedActorBoundReceipt := do
  checkDeadline
  enter
  let expected ← readStoredEntry key
  checkVersion expected expectedVersion
  let lifecycle ← compute (ownedLifecycle expected.record.lifecycle provenLinkCapacity)
  let r ← advanceReceipt key expected lifecycle maxTaskRecordEnvelopeBytes
  let w ← get
  match committedState w.catalog r.record.keyDigest id with
  | some (.taskReceiptOwnedActorBound receipt) => pure receipt
  | _ => latchCatalogError (.commitUncertain r.record.keyDigest)

namespace TaskCancellationReceipt

def record : TaskCancellationReceipt → ReceiptRecordHeader
  | promisedUnbound receipt => receipt.record
  | promisedActorBound receipt => receipt.record
  | handoffActorBound receipt => receipt.record
  | receiptOwnedActorBound receipt => receipt.record

def task : TaskCancellationReceipt → ReceiptTaskProjection
  | promisedUnbound receipt => receipt.task
  | promisedActorBound receipt => receipt.task
  | handoffActorBound receipt => receipt.task
  | receiptOwnedActorBound receipt => receipt.task

def cancelRequested : TaskCancellationReceipt → Bool
  | promisedUnbound receipt => receipt.cancelRequested
  | promisedActorBound receipt => receipt.cancelRequested
  | handoffActorBound receipt => receipt.cancelRequested
  | receiptOwnedActorBound receipt => receipt.cancelRequested

def reservedResultBytes : TaskCancellationReceipt → Nat
  | promisedUnbound receipt => receipt.reservedResultBytes
  | promisedActorBound receipt => receipt.reservedResultBytes
  | handoffActorBound receipt => receipt.reservedResultBytes
  | receiptOwnedActorBound receipt => receipt.reservedResultBytes

def intoReceiptState : TaskCancellationReceipt → ReceiptState
  | promisedUnbound receipt => .taskPromisedUnbound receipt
  | promisedActorBound receipt => .taskPromisedActorBound receipt
  | handoffActorBound receipt => .taskHandoffActorBound receipt
  | receiptOwnedActorBound receipt => .taskReceiptOwnedActorBound receipt

/-- The variant's own fields agree. -/
def sameShape : TaskCancellationReceipt → TaskCancellationReceipt → Bool
  | promisedUnbound _, promisedUnbound _ => true
  | promisedActorBound actual, promisedActorBound expected => decide (actual.link = expected.link)
  | handoffActorBound actual, handoffActorBound expected =>
      decide (actual.link = expected.link ∧ actual.phase = expected.phase
        ∧ actual.terminalStage = expected.terminalStage)
  | receiptOwnedActorBound actual, receiptOwnedActorBound expected =>
      decide (actual.link = expected.link ∧ actual.provenLinkCapacity = expected.provenLinkCapacity)
  | _, _ => false

def isExactCancelSuccessorOf (actual expected : TaskCancellationReceipt) : Bool :=
  actual.cancelRequested && !expected.cancelRequested
    && decide (expected.record.recordVersion.checkedNext = some actual.record.recordVersion)
    && actual.sameShape expected
    && decide (actual.record.key = expected.record.key
      ∧ actual.record.keyDigest = expected.record.keyDigest ∧ actual.task = expected.task
      ∧ actual.record.encodedBytes + actual.reservedResultBytes
        = expected.record.encodedBytes + expected.reservedResultBytes)

end TaskCancellationReceipt

/-- The states a Task cancellation may find. A receipt-owned Task is not one of them. -/
def cancellableState : ReceiptState → Option TaskCancellationReceipt
  | .taskPromisedUnbound receipt => some (.promisedUnbound receipt)
  | .taskPromisedActorBound receipt => some (.promisedActorBound receipt)
  | .taskHandoffActorBound receipt => some (.handoffActorBound receipt)
  | _ => none

def cancelledLifecycle : StoredActiveLifecycle → Except ReceiptLedgerError StoredActiveLifecycle
  | .taskPromisedUnbound cutoff task _ => .ok (.taskPromisedUnbound cutoff task true)
  | .taskPromisedActorBound cutoff task workspace link _ =>
      .ok (.taskPromisedActorBound cutoff task workspace link true)
  | .taskHandoffActorBound cutoff task workspace link phase _ stage =>
      .ok (.taskHandoffActorBound cutoff task workspace link phase true stage)
  | .taskReceiptOwnedActorBound cutoff task workspace link capacity _ =>
      .ok (.taskReceiptOwnedActorBound cutoff task workspace link capacity true)
  | _ => .error .receiptRowPresentUnsupported

/-- A committed entry with its body restored from the row that was written. -/
def CatalogEntry.withBodyFromRow (e : CatalogEntry) (r : EncodedRecord) :
    Except ReceiptLedgerError CatalogEntry :=
  if e.record.lifecycle.resultBodyIsOnDisk then
    if r.entry.same e then .ok r.entry
    else .error (.corrupt "committed receipt row differs from its catalog entry")
  else .ok e

def requestTaskCancel (key : ReceiptKey) (expectedState : TaskCancellationReceipt) :
    Ledger TaskCancellationReceipt := do
  checkDeadline
  compute (refuseIf (expectedState.record.key ≠ key) .taskCancellationMismatch)
  enter
  let persisted ← readExactEntry key
  let state ← orLatch persisted.state
  let actual ← compute (okOr .receiptRowPresentUnsupported (cancellableState state))
  if (actual = expectedState ∧ actual.cancelRequested)
      ∨ actual.isExactCancelSuccessorOf expectedState then pure actual
  else do
    compute (refuseIf (actual ≠ expectedState) .taskCancellationMismatch)
    let lifecycle ← compute (cancelledLifecycle persisted.record.lifecycle)
    let r ← advanceReceipt key persisted lifecycle maxTaskRecordEnvelopeBytes
    let catalogued ← committedEntry r.record.keyDigest
    let committed ← compute (catalogued.withBodyFromRow r)
    let committedState ← orLatch committed.state
    match cancellableState committedState with
    | some cancelled =>
        if cancelled.isExactCancelSuccessorOf expectedState then pure cancelled
        else latchCatalogError (.commitUncertain r.record.keyDigest)
    | none => latchCatalogError (.commitUncertain r.record.keyDigest)

/-- A staged handoff publishes only the terminal it staged; a begun one must stage it first. -/
def checkStagedTerminal (expectedState : TaskCancellationReceipt) (terminalEpochMs : EpochMs)
    (terminal : V5CanonicalTerminal) : Except ReceiptLedgerError Unit :=
  match expectedState with
  | .handoffActorBound receipt =>
      match receipt.terminalStage with
      | .noTerminal => refuseIf (receipt.phase = .begun) .receiptRowPresentUnsupported
      | .staged stagedEpoch stagedTerminal _ =>
          refuseIf (stagedEpoch ≠ terminalEpochMs ∨ stagedTerminal ≠ terminal) .terminalMismatch
  | _ => .ok ()

/-- The Task projection of a terminal: updated at its epoch, one version further. -/
def terminalTask (task : ReceiptTaskProjection) (terminalEpochMs : EpochMs) :
    Except ReceiptLedgerError ReceiptTaskProjection := do
  let version ← okOr (.corrupt "Task projection version exhausted u64")
    (checkedAdd wordBound task.version 1)
  ReceiptTaskProjection.new { task.toStoredTask with updatedAtEpochMs := terminalEpochMs, version }

/-- What a publication finds: the same terminal already published, or the expected state. -/
def receiptBackedRequest (state : ReceiptState) (expected : CatalogEntry)
    (expectedState : TaskCancellationReceipt) (task : ReceiptTaskProjection)
    (terminalEpochMs : EpochMs) (terminal : V5CanonicalTerminal) :
    Except ReceiptLedgerError (Option TaskTerminalReceiptBackedReceipt) :=
  let mismatch := ReceiptLedgerError.receiptVersionMismatch expectedState.record.recordVersion
    expected.record.recordVersion
  match state with
  | .taskTerminalReceiptBacked receipt =>
      if receipt.task = task ∧ receipt.terminalEpochMs = terminalEpochMs ∧ receipt.terminal = terminal
          ∧ receipt.cancelRequested = expectedState.cancelRequested then .ok (some receipt)
      else .error mismatch
  | actual =>
      if actual = expectedState.intoReceiptState then .ok none else .error mismatch

def publishReceiptBackedTaskTerminal (key : ReceiptKey) (expectedState : TaskCancellationReceipt)
    (terminalEpochMs : EpochMs) (terminal : V5CanonicalTerminal) :
    Ledger TaskTerminalReceiptBackedReceipt := do
  checkDeadline
  compute (refuseIf (expectedState.record.key ≠ key) .taskBoundMismatch)
  compute (checkStagedTerminal expectedState terminalEpochMs terminal)
  let task ← compute (terminalTask expectedState.task terminalEpochMs)
  enter
  let expected ← readStoredEntry key
  let state ← orLatch expected.state
  match ← compute (receiptBackedRequest state expected expectedState task terminalEpochMs terminal) with
  | some receipt => pure receipt
  | none => do
      checkVersion expected expectedState.record.recordVersion
      let version ← compute (nextRecordVersion expected.record.recordVersion)
      let sequence ← nextMutationSequence
      let r ← compute (serializeReservedRecord (taskRecord key sequence version
        (.taskTerminalReceiptBacked task.toStoredTask terminalEpochMs terminal.digest
          (some terminal.outcome) expectedState.cancelRequested)) maxReceiptEntitlementBytes)
      let w ← get
      orLatchIfReopen (validateCatalogReplace w.catalog expected r.entry)
      commitReplacementRow r
      let committed ← committedEntry r.record.keyDigest
      match (committed.withResultBody terminal).state with
      | .ok (.taskTerminalReceiptBacked receipt) => pure receipt
      | _ => latchCatalogError (.commitUncertain r.record.keyDigest)

end Unica.Receipt
