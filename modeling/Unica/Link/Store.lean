import Unica.Link.Record
import Unica.Lib.Update

/-!
# The lifecycle-link store

One snapshot file holds the whole catalog of links. A mutation works on a copy of the
catalog in memory, writes the copy over the snapshot, reads it back, and only then adopts
it in memory. Every operation holds the writer lock for its whole length, so an operation
is one program; each call of the file system and each deadline check is a fallible step.
-/

namespace Unica.Link

open Lib Receipt Prog

/-- The `StoreCatalog` of the source. -/
structure LinkCatalog [ReceiptCodec] where
  mutationSequence : Nat
  entries : Table ReceiptKeyDigest LinkEntry
  taskIndex : Table TaskId ReceiptKeyDigest
  invocationIndex : Table InvocationId ReceiptKeyDigest
  deriving DecidableEq

/-- The contents of the snapshot file. -/
structure StoredCatalog where
  mutationSequence : Nat
  entries : List StoredEntry
  deriving DecidableEq

section Catalog

variable [ReceiptCodec]

namespace LinkCatalog

def empty : LinkCatalog := ⟨0, ∅, ∅, ∅⟩

def put (c : LinkCatalog) (entry : LinkEntry) : LinkCatalog :=
  { c with
    entries := c.entries.insert entry.keyDigest entry
    taskIndex := c.taskIndex.insert entry.header.key.reservedTaskId entry.keyDigest
    invocationIndex := c.invocationIndex.insert entry.header.key.invocationId entry.keyDigest }

def taken (c : LinkCatalog) (key : ReceiptKey) (keyDigest : ReceiptKeyDigest) : Prop :=
  (∃ existing ∈ c.taskIndex.lookup key.reservedTaskId, existing ≠ keyDigest)
    ∨ ∃ existing ∈ c.invocationIndex.lookup key.invocationId, existing ≠ keyDigest

instance (c : LinkCatalog) (key : ReceiptKey) (keyDigest : ReceiptKeyDigest) :
    Decidable (c.taken key keyDigest) :=
  inferInstanceAs (Decidable (_ ∨ _))

/-- The header of a link already agrees with its key, so the source's first check cannot fail. -/
def insertExact (c : LinkCatalog) (entry : LinkEntry) : Except LinkStoreError LinkCatalog := do
  refuseIf (c.taken entry.header.key entry.keyDigest) .identityMismatch
  pure (c.put entry)

def removeExactPending (c : LinkCatalog) (expected : TaskRetirementPendingReceipt) :
    Except LinkStoreError LinkCatalog := do
  let keyDigest := receiptKeyDigest expected.record.key
  let current ← okOr (.notFound expected.task.taskId) (c.entries.lookup keyDigest)
  refuseIf (current ≠ .link (.taskRetirementPending expected)) .stateMismatch
  refuseIf (c.taskIndex.lookup expected.task.taskId ≠ some keyDigest
      ∨ c.invocationIndex.lookup expected.task.invocationId ≠ some keyDigest)
    (.corrupt "TaskRetirementPending indexes do not bind its exact identity")
  pure { c with
    entries := c.entries.erase keyDigest
    taskIndex := c.taskIndex.erase expected.task.taskId
    invocationIndex := c.invocationIndex.erase expected.task.invocationId }

/-- `borrowed_catalog`. The source orders the links by state and invocation; a reader is given them
one by one and keeps no order. -/
def stored (c : LinkCatalog) : StoredCatalog where
  mutationSequence := c.mutationSequence
  entries := c.entries.sortedKeys.filterMap fun keyDigest =>
    (c.entries.lookup keyDigest).map StoredEntry.fromCatalogEntry

end LinkCatalog

/-- One element of the snapshot's array. -/
def readEntry (c : LinkCatalog) (stored : StoredEntry) : Except LinkStoreError LinkCatalog := do
  ensureRecordSize stored.encodedLen
  let entry ← stored.intoCatalogEntry
  refuseIf (c.entries.lookup entry.keyDigest).isSome
    (.corrupt "Task lifecycle-link snapshot contains a duplicate exact key")
  c.insertExact entry

def StoredCatalog.read (stored : StoredCatalog) : Except LinkStoreError LinkCatalog := do
  let c ← stored.entries.foldlM readEntry LinkCatalog.empty
  refuseIf (c.entries.existsValue fun _ entry => stored.mutationSequence < entry.header.mutationSequence)
    (.corrupt "Task lifecycle-link entry mutation exceeds the durable high-water mark")
  pure { c with mutationSequence := stored.mutationSequence }

end Catalog

/-- The store's directory and the catalog its writer serves. -/
structure LinkStore [ReceiptCodec] where
  snapshot : Option StoredCatalog
  memory : LinkCatalog
  staging : Nat
  quarantined : Nat

open LinkStore

section Operations

variable [ReceiptCodec]

abbrev LinkM := Prog LinkStore LinkStoreError

namespace LinkStore

/-- The root of a new installation. -/
def fresh : LinkStore := ⟨none, .empty, 0, 0⟩

def stage (s : LinkStore) : LinkStore := { s with staging := s.staging + 1 }

def unstage (s : LinkStore) : LinkStore := { s with staging := s.staging - 1 }

def quarantine (s : LinkStore) : LinkStore := { s with quarantined := s.quarantined + 1 }

def unlink (s : LinkStore) : LinkStore := { s with quarantined := s.quarantined - 1 }

/-- The staged file now has the snapshot's name. -/
def publish (catalog : StoredCatalog) (s : LinkStore) : LinkStore :=
  { s with snapshot := some catalog, staging := s.staging - 1 }

def adopt (catalog : LinkCatalog) (s : LinkStore) : LinkStore := { s with memory := catalog }

end LinkStore

def checkDeadline : LinkM Unit := attempt .deadlineExceeded

def io (operation : String) : LinkM Unit := attempt (.storage operation)

/-- The deadline is checked while the lock is awaited. -/
def lockWriter : LinkM Unit := checkDeadline

def verifyRootAuthority : LinkM Unit := do
  io "validate Task lifecycle-link root"
  io "verify Task lifecycle-link root ownership"

/-- `remove_state_regular_child`, as in the Task store. -/
def removeStateRegularChild (operation : String) : LinkM Unit := do
  io operation
  modify fun s => s.unstage.quarantine
  io operation
  modify unlink

def discardStaging : LinkM Unit := removeStateRegularChild "discard staging"

def readCatalogFromDisk : LinkM LinkCatalog := do
  checkDeadline
  io "open Task lifecycle-link snapshot"
  let s ← get
  let stored ← lift (okOr (.storage "open Task lifecycle-link snapshot") s.snapshot)
  io "verify Task lifecycle-link snapshot ownership"
  -- every read of the file checks the deadline first
  checkDeadline
  io "read Task lifecycle-link snapshot"
  let catalog ← lift stored.read
  checkDeadline
  verifyRootAuthority
  pure catalog

def verifyExistingSnapshot : LinkM Unit := do
  let s ← get
  if s.snapshot.isSome then io "verify existing Task lifecycle-link snapshot" else pure ()

/-- Everything up to the rename: a failure leaves at most a staged file behind. -/
def stageCatalog : LinkM Unit := do
  checkDeadline
  verifyRootAuthority
  io "create Task lifecycle-link staging file"
  modify stage
  io "identify Task lifecycle-link staging file"
  (io "restrict Task lifecycle-link staging file").cleaningUp discardStaging
  (do checkDeadline
      io "serialize Task lifecycle-link snapshot"
      io "sync Task lifecycle-link staging file").cleaningUp discardStaging
  checkDeadline
  verifyRootAuthority
  io "inspect Task lifecycle-link snapshot"
  verifyExistingSnapshot
  (io "publish Task lifecycle-link snapshot").cleaningUp discardStaging

/-- Everything after the rename. A deadline that passes during the readback leaves the commit
uncertain; any other failure of the readback is reported as it is. -/
def confirmCatalog (catalog : LinkCatalog) (keyDigest : ReceiptKeyDigest) : LinkM LinkCatalog := do
  attempt (.commitUncertain keyDigest)
  attempt (.commitUncertain keyDigest)
  let readback ← (do
    match ← readCatalogFromDisk.reify with
    | .ok readback => pure readback
    | .error .deadlineExceeded => throw (.commitUncertain keyDigest)
    | .error e => throw e)
  lift (refuseIf (readback ≠ catalog)
    (.corrupt "Task lifecycle-link exact durable readback changed the committed catalog"))
  pure readback

def publishAndReadback (catalog : LinkCatalog) (keyDigest : ReceiptKeyDigest) : LinkM LinkCatalog := do
  stageCatalog
  modify (publish catalog.stored)
  confirmCatalog catalog keyDigest

/-- Publish the successor of the catalog in memory and adopt it. -/
def commit (next : LinkCatalog) (keyDigest : ReceiptKeyDigest) : LinkM Unit := do
  let committed ← publishAndReadback next keyDigest
  modify (adopt committed)

/-! ## Mutations

A mutation plans the next catalog from the one in memory and commits it. The plans are
pure; three of the mutations check what they adopted once more.
-/

def mutate {α : Type} (keyDigest : ReceiptKeyDigest)
    (plan : LinkCatalog → Except LinkStoreError (LinkCatalog × α)) (check : α → LinkM Unit) : LinkM α := do
  lockWriter
  let s ← get
  let planned ← lift (plan s.memory)
  commit planned.1 keyDigest
  check planned.2
  pure planned.2

def unchecked {α : Type} (_ : α) : LinkM Unit := pure ()

def requireReadback (keyDigest : ReceiptKeyDigest) (entry : LinkEntry) (message : String) : LinkM Unit := do
  let s ← get
  lift (refuseIf (s.memory.entries.lookup keyDigest ≠ some entry) (.corrupt message))

/-- The catalog with the link the builder makes at the next sequence. -/
def planEntry {α : Type} (c : LinkCatalog) (entry : α → LinkEntry) (build : Nat → Except LinkStoreError α) :
    Except LinkStoreError (LinkCatalog × α) := do
  let sequence ← nextSequence c.mutationSequence
  let built ← build sequence
  let next ← LinkCatalog.insertExact { c with mutationSequence := sequence } (entry built)
  pure (next, built)

def validateExactIdentity (key : ReceiptKey) (link : TaskLinkIdentity) : Except LinkStoreError Unit :=
  refuseIf (link.receiptKeyDigest ≠ receiptKeyDigest key ∨ link.taskId ≠ key.reservedTaskId
    ∨ link.invocationId ≠ key.invocationId) .identityMismatch

def existingReservation (key : ReceiptKey) (link : TaskLinkIdentity) :
    LinkEntry → Except LinkStoreError TaskLinkReservation
  | .reservation held =>
      if held.header.key = key ∧ held.header.link = link then .ok held else .error .identityMismatch
  | .link record =>
      if record.header.key = key ∧ record.header.link = link then
        .error (.alreadyMaterialized key.reservedTaskId)
      else .error .identityMismatch

def planReservation (key : ReceiptKey) (link : TaskLinkIdentity) (c : LinkCatalog) :
    Except LinkStoreError (LinkCatalog × TaskLinkReservation) := do
  refuseIf (c.taken key (receiptKeyDigest key)) .identityMismatch
  planEntry c .reservation (buildReservation key link)

def reserveTaskLink (key : ReceiptKey) (link : TaskLinkIdentity) : LinkM TaskLinkReservation := do
  lift (validateExactIdentity key link)
  lockWriter
  verifyRootAuthority
  let keyDigest := receiptKeyDigest key
  let s ← get
  match s.memory.entries.lookup keyDigest with
  | some existing => lift (existingReservation key link existing)
  | none => do
      let planned ← lift (planReservation key link s.memory)
      commit planned.1 keyDigest
      requireReadback keyDigest (.reservation planned.2)
        "durable lifecycle-link reservation readback changed"
      pure planned.2

def planTaskBound (reservation : TaskLinkReservation) (task : ReceiptTaskProjection)
    (taskRecordVersion : Nat) (bindEpochMs : EpochMs) (phase : AttemptPhase) (c : LinkCatalog) :
    Except LinkStoreError (LinkCatalog × TaskBoundReceipt) := do
  refuseIf (c.entries.lookup (receiptKeyDigest reservation.header.key)
    ≠ some (.reservation reservation)) .reservationMismatch
  planEntry c (fun record => .link (.taskBound record)) fun sequence => do
    let version ← nextSequence reservation.header.lifecycleLinkVersion
    buildTaskBound reservation.header.key reservation.header.link task version sequence taskRecordVersion
      bindEpochMs phase

def materializeTaskBound (reservation : TaskLinkReservation) (task : ReceiptTaskProjection)
    (taskRecordVersion : Nat) (bindEpochMs : EpochMs) (phase : AttemptPhase) : LinkM TaskBoundReceipt :=
  mutate (receiptKeyDigest reservation.header.key)
    (planTaskBound reservation task taskRecordVersion bindEpochMs phase)
    fun record => requireReadback (receiptKeyDigest reservation.header.key)
      (.link (.taskBound record)) "durable TaskBound readback changed"

/-- `exact_task_bound` and `exact_task_terminal_bound` with the comparison that follows them: the
link under the key is exactly the expected one, and a version that moved on is reported as such. -/
def exactLink (c : LinkCatalog) (expected : TaskLifecycleLinkRecord) : Except LinkStoreError Unit := do
  let entry ← okOr .stateMismatch (c.entries.lookup (receiptKeyDigest expected.header.key))
  match entry with
  | .reservation _ => .error .stateMismatch
  | .link record => do
      refuseIf (record.header.lifecycleLinkVersion ≠ expected.header.lifecycleLinkVersion)
        (.versionMismatch expected.header.lifecycleLinkVersion record.header.lifecycleLinkVersion)
      refuseIf (record ≠ expected) .stateMismatch

/-- A TaskBound after the expected one. -/
def planBoundSuccessor (expected : TaskBoundReceipt) (task : ReceiptTaskProjection) (phase : AttemptPhase)
    (c : LinkCatalog) : Except LinkStoreError (LinkCatalog × TaskBoundReceipt) :=
  planEntry c (fun record => .link (.taskBound record)) fun sequence => do
    let version ← nextSequence expected.record.lifecycleLinkVersion
    buildTaskBound expected.record.key expected.record.link task version sequence task.version
      expected.bindEpochMs phase

def planBegun (expected : TaskBoundReceipt) (taskRecordVersion : Nat) (updatedAtEpochMs : EpochMs)
    (c : LinkCatalog) : Except LinkStoreError (LinkCatalog × TaskBoundReceipt) := do
  exactLink c (.taskBound expected)
  let task ← applicationCorruption (ReceiptTaskProjection.new
    { expected.task.toStoredTask with updatedAtEpochMs, version := taskRecordVersion })
  planBoundSuccessor expected task .begun c

def markTaskBoundBegun (expected : TaskBoundReceipt) (taskRecordVersion : Nat)
    (updatedAtEpochMs : EpochMs) : LinkM TaskBoundReceipt := do
  lift (refuseIf (expected.phase ≠ .notBegun) .stateMismatch)
  mutate (receiptKeyDigest expected.record.key)
    (planBegun expected taskRecordVersion updatedAtEpochMs) unchecked

def planRefreshed (expected : TaskBoundReceipt) (task : ReceiptTaskProjection) (c : LinkCatalog) :
    Except LinkStoreError (LinkCatalog × TaskBoundReceipt) := do
  exactLink c (.taskBound expected)
  planBoundSuccessor expected task expected.phase c

def refreshTaskBoundProjection (expected : TaskBoundReceipt) (task : ReceiptTaskProjection) :
    LinkM TaskBoundReceipt :=
  mutate (receiptKeyDigest expected.record.key) (planRefreshed expected task)
    fun record => requireReadback (receiptKeyDigest expected.record.key)
      (.link (.taskBound record)) "durable refreshed TaskBound readback changed"

def planTerminalBound (expected : TaskBoundReceipt) (terminalTask : ReceiptTaskProjection)
    (taskRecordVersion : Nat) (status : ClosedTerminalStatus) (digest : TerminalDigest)
    (terminalEpochMs : EpochMs) (c : LinkCatalog) :
    Except LinkStoreError (LinkCatalog × TaskTerminalBoundReceipt) := do
  exactLink c (.taskBound expected)
  planEntry c (fun record => .link (.taskTerminalBound record)) fun sequence => do
    let expiresAtEpochMs ← okOr (.corrupt "terminal retention timestamp overflowed")
      (checkedAdd wordBound terminalEpochMs terminalTask.ttlMs)
    let version ← nextSequence expected.record.lifecycleLinkVersion
    buildTaskTerminalBound expected.record.key expected.record.link terminalTask version sequence
      taskRecordVersion status digest terminalEpochMs expiresAtEpochMs

def publishTaskTerminalBound (expected : TaskBoundReceipt) (terminalTask : ReceiptTaskProjection)
    (taskRecordVersion : Nat) (status : ClosedTerminalStatus) (digest : TerminalDigest)
    (terminalEpochMs : EpochMs) : LinkM TaskTerminalBoundReceipt :=
  mutate (receiptKeyDigest expected.record.key)
    (planTerminalBound expected terminalTask taskRecordVersion status digest terminalEpochMs) unchecked

def planRetirement (expected : TaskTerminalBoundReceipt) (invocationIndexBytes reservedTaskIndexBytes : Nat)
    (c : LinkCatalog) : Except LinkStoreError (LinkCatalog × TaskRetirementPendingReceipt) := do
  exactLink c (.taskTerminalBound expected)
  planEntry c (fun record => .link (.taskRetirementPending record)) fun sequence => do
    let version ← nextSequence expected.record.lifecycleLinkVersion
    buildTaskRetirementPending expected version sequence invocationIndexBytes reservedTaskIndexBytes

def beginTaskRetirement (expected : TaskTerminalBoundReceipt)
    (invocationIndexBytes reservedTaskIndexBytes : Nat) : LinkM TaskRetirementPendingReceipt :=
  mutate (receiptKeyDigest expected.record.key)
    (planRetirement expected invocationIndexBytes reservedTaskIndexBytes) unchecked

def planRemoval (expected : TaskRetirementPendingReceipt) (c : LinkCatalog) :
    Except LinkStoreError (LinkCatalog × Unit) := do
  let next ← c.removeExactPending expected
  let sequence ← nextSequence c.mutationSequence
  pure ({ next with mutationSequence := sequence }, ())

def finalizeTaskRetirement (expected : TaskRetirementPendingReceipt) : LinkM Unit :=
  mutate (receiptKeyDigest expected.record.key) (planRemoval expected) unchecked

/-! ## Reading -/

/-- Replace the catalog in memory by the durable one. -/
def reloadDurableCatalog : LinkM Unit := do
  lockWriter
  verifyRootAuthority
  let catalog ← readCatalogFromDisk
  modify (adopt catalog)

def readByTaskId (taskId : TaskId) : LinkM TaskLifecycleLinkRecord := do
  lockWriter
  verifyRootAuthority
  let s ← get
  let keyDigest ← lift (okOr (.notFound taskId) (s.memory.taskIndex.lookup taskId))
  match s.memory.entries.lookup keyDigest with
  | some (.link record) => pure record
  | some (.reservation _) => throw (.notFound taskId)
  | none => throw (.corrupt "Task lifecycle-link task index points to no record")

/-- Remove the files a cut commit left behind. -/
def removeAbandonedStaging : Nat → LinkM Unit
  | 0 => pure ()
  | n + 1 => do
      checkDeadline
      verifyRootAuthority
      io "reopen Task lifecycle-link staging"
      io "verify reopened Task lifecycle-link staging ownership"
      io "identify reopened lifecycle-link staging"
      removeStateRegularChild "remove abandoned Task lifecycle-link staging"
      removeAbandonedStaging n

def recoverStaging (abandoned : Nat) : LinkM Unit := do
  removeAbandonedStaging abandoned
  if 0 < abandoned then io "sync Task lifecycle-link staging cleanup" else pure ()

/-- The catalog of the snapshot, or an empty one where there is none yet. -/
def readSnapshot : LinkM LinkCatalog := do
  let s ← get
  if s.snapshot.isSome then readCatalogFromDisk else pure LinkCatalog.empty

/-- Taking the ownership lock and `inspect_and_recover`. The directory may hold the lock, the
snapshot and staged files; any other name, a removal's quarantine among them, is refused. -/
def inspectAndRecover : LinkM LinkCatalog := do
  checkDeadline
  io "retain Task lifecycle-link root"
  verifyRootAuthority
  io "open Task lifecycle-link ownership object"
  io "verify Task lifecycle-link ownership object"
  attempt .alreadyOwned
  verifyRootAuthority
  checkDeadline
  let s ← get
  lift (refuseIf (0 < s.quarantined)
    (.corrupt "Task lifecycle-link root contains an unsupported entry"))
  io "verify Task lifecycle-link staging ownership"
  let catalog ← readSnapshot
  recoverStaging s.staging
  verifyRootAuthority
  pure catalog

def openLinkStore : LinkM Unit := do
  let catalog ← inspectAndRecover
  modify (adopt catalog)

end Operations

end Unica.Link
