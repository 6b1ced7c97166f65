import Unica.Receipt.Records
import Mathlib.Data.Nat.Log

/-!
# Lifecycle-link records

The link of a Task follows its record from the handoff to the record's retirement. A
link is built through the constructors of its state, which check it against its key and
its Task, and it knows the length of its own JSON, which must fit the reserved kilobyte.
A snapshot holds links without that length: reading one measures it again.
-/

namespace Unica.Receipt

open Lib

def V5ToolIdentity.wireName : V5ToolIdentity → String
  | view => "unica.view"
  | apply => "unica.apply"
  | resolve => "unica.resolve"
  | search => "unica.search"
  | check => "unica.check"
  | diff => "unica.diff"
  | run => "unica.run"
  | docs => "unica.docs"

@[ext] structure RetainedDualIdAccounting where
  invocationIndexBytes : Nat
  reservedTaskIndexBytes : Nat
  invocation_pos : 0 < invocationIndexBytes
  task_pos : 0 < reservedTaskIndexBytes

instance : DecidableEq RetainedDualIdAccounting := fun _ _ =>
  decidable_of_iff _ RetainedDualIdAccounting.ext_iff.symm

@[ext] structure TaskRetirementPendingReceipt [ReceiptCodec] where
  record : LifecycleLinkRecordHeader
  task : ReceiptTaskProjection
  expectedTerminalTaskVersion : Nat
  terminalStatus : ClosedTerminalStatus
  terminalDigest : TerminalDigest
  terminalEpochMs : EpochMs
  expiresAtEpochMs : EpochMs
  retainedLinkBytes : Nat
  retainedDualIdAccounting : RetainedDualIdAccounting
  task_eq : task.taskId = record.key.reservedTaskId
  invocation_eq : task.invocationId = record.key.invocationId
  version_eq : task.version = expectedTerminalTaskVersion
  updated_eq : task.updatedAtEpochMs = terminalEpochMs
  expiry_eq : expiresAtEpochMs = terminalEpochMs + task.ttlMs
  expiry_lt : expiresAtEpochMs < wordBound
  retained_pos : 0 < retainedLinkBytes

instance [ReceiptCodec] : DecidableEq TaskRetirementPendingReceipt := fun _ _ =>
  decidable_of_iff _ TaskRetirementPendingReceipt.ext_iff.symm

def RetainedDualIdAccounting.new (invocationIndexBytes reservedTaskIndexBytes : Nat) :
    Except ReceiptLedgerError RetainedDualIdAccounting :=
  if h : 0 < invocationIndexBytes ∧ 0 < reservedTaskIndexBytes then
    .ok ⟨invocationIndexBytes, reservedTaskIndexBytes, h.1, h.2⟩
  else .error (.corrupt "retirement must retain nonzero dual-ID accounting")

section Constructors

variable [ReceiptCodec]

def LifecycleLinkRecordHeader.new (key : ReceiptKey) (link : TaskLinkIdentity)
    (lifecycleLinkVersion mutationSequence encodedBytes : Nat) :
    Except ReceiptLedgerError LifecycleLinkRecordHeader :=
  if hpos : 0 < lifecycleLinkVersion ∧ 0 < mutationSequence ∧ 0 < encodedBytes then
    if hle : encodedBytes ≤ maxTaskLifecycleLinkRecordBytes then
      if hid : link.receiptKeyDigest = receiptKeyDigest key
          ∧ link.taskId = key.reservedTaskId ∧ link.invocationId = key.invocationId then
        .ok ⟨key, link, lifecycleLinkVersion, mutationSequence, encodedBytes, hpos.1, hpos.2.1, hpos.2.2,
          hle, hid.1, hid.2.1, hid.2.2⟩
      else .error (.corrupt "lifecycle link identity contradicts its exact receipt key or digest")
    else .error .recordTooLarge
  else .error (.corrupt
    "lifecycle link requires nonzero version, mutation sequence, and encoded bytes")

/-- The header's link already names the key's Task and invocation, and a projection's version is
not zero. -/
def TaskBoundReceipt.new (record : LifecycleLinkRecordHeader) (task : ReceiptTaskProjection)
    (taskRecordVersion : Nat) (bindEpochMs : EpochMs) (phase : AttemptPhase) :
    Except ReceiptLedgerError TaskBoundReceipt :=
  if h : task.taskId = record.key.reservedTaskId ∧ task.invocationId = record.key.invocationId
      ∧ task.version = taskRecordVersion ∧ task.createdAtEpochMs ≤ bindEpochMs then
    .ok ⟨record, task, taskRecordVersion, bindEpochMs, phase, h.1, h.2.1, h.2.2.1, h.2.2.2⟩
  else .error (.corrupt "TaskBound contradicts its exact receipt, link, Task version, or bind epoch")

def TaskTerminalBoundReceipt.new (record : LifecycleLinkRecordHeader) (task : ReceiptTaskProjection)
    (taskRecordVersion : Nat) (terminalStatus : ClosedTerminalStatus) (terminalDigest : TerminalDigest)
    (terminalEpochMs expiresAtEpochMs : EpochMs) : Except ReceiptLedgerError TaskTerminalBoundReceipt :=
  if hlt : terminalEpochMs + task.ttlMs < wordBound then
    if h : task.taskId = record.key.reservedTaskId ∧ task.invocationId = record.key.invocationId
        ∧ task.version = taskRecordVersion ∧ task.updatedAtEpochMs = terminalEpochMs
        ∧ expiresAtEpochMs = terminalEpochMs + task.ttlMs then
      .ok ⟨record, task, taskRecordVersion, terminalStatus, terminalDigest, terminalEpochMs,
        expiresAtEpochMs, h.1, h.2.1, h.2.2.1, h.2.2.2.1, h.2.2.2.2, h.2.2.2.2 ▸ hlt⟩
    else .error (.corrupt
      "TaskTerminalBound contradicts its exact identity, Task version, or terminal retention")
  else .error .timestampOverflow

def TaskRetirementPendingReceipt.new (record : LifecycleLinkRecordHeader) (task : ReceiptTaskProjection)
    (expectedTerminalTaskVersion : Nat) (terminalStatus : ClosedTerminalStatus)
    (terminalDigest : TerminalDigest) (terminalEpochMs expiresAtEpochMs : EpochMs)
    (retainedLinkBytes : Nat) (accounting : RetainedDualIdAccounting) :
    Except ReceiptLedgerError TaskRetirementPendingReceipt :=
  if hlt : terminalEpochMs + task.ttlMs < wordBound then
    if h : task.taskId = record.key.reservedTaskId ∧ task.invocationId = record.key.invocationId
        ∧ task.version = expectedTerminalTaskVersion ∧ task.updatedAtEpochMs = terminalEpochMs
        ∧ expiresAtEpochMs = terminalEpochMs + task.ttlMs ∧ 0 < retainedLinkBytes then
      .ok ⟨record, task, expectedTerminalTaskVersion, terminalStatus, terminalDigest, terminalEpochMs,
        expiresAtEpochMs, retainedLinkBytes, accounting, h.1, h.2.1, h.2.2.1, h.2.2.2.1, h.2.2.2.2.1,
        h.2.2.2.2.1 ▸ hlt, h.2.2.2.2.2⟩
    else .error (.corrupt
      "TaskRetirementPending contradicts its exact terminal Task or retained accounting")
  else .error .timestampOverflow

end Constructors

end Unica.Receipt

namespace Unica.Link

open Lib Receipt

inductive LinkStoreError where
  | alreadyOwned
  | deadlineExceeded
  | notFound (taskId : TaskId)
  | alreadyMaterialized (taskId : TaskId)
  | identityMismatch
  | reservationMismatch
  | stateMismatch
  | versionMismatch (expected actual : Nat)
  | recordTooLarge (actual maximum : Nat)
  | commitUncertain (receiptKeyDigest : ReceiptKeyDigest)
  | corrupt (message : String)
  | storage (operation : String)
  deriving DecidableEq

def applicationCorruption {α : Type} : Except ReceiptLedgerError α → Except LinkStoreError α
  | .ok a => .ok a
  | .error _ => .error
      (.corrupt "Task lifecycle-link application model rejected persisted exact state")

def nextSequence (current : Nat) : Except LinkStoreError Nat :=
  okOr (.corrupt "Task lifecycle-link sequence overflowed") (checkedAdd wordBound current 1)

def ensureRecordSize (encodedLen : Nat) : Except LinkStoreError Unit :=
  refuseIf (maxTaskLifecycleLinkRecordBytes < encodedLen)
    (.recordTooLarge encodedLen maxTaskLifecycleLinkRecordBytes)

/-! ## Links -/

/-- A slot held for a Task that is not materialized yet. It has the fields of a header, and its
version is the reservation version. -/
structure TaskLinkReservation [ReceiptCodec] where
  header : LifecycleLinkRecordHeader
  deriving DecidableEq

inductive TaskLifecycleLinkRecord [ReceiptCodec] where
  | taskBound (record : TaskBoundReceipt)
  | taskTerminalBound (record : TaskTerminalBoundReceipt)
  | taskRetirementPending (record : TaskRetirementPendingReceipt)
  deriving DecidableEq

def TaskLifecycleLinkRecord.header [ReceiptCodec] : TaskLifecycleLinkRecord → LifecycleLinkRecordHeader
  | taskBound record => record.record
  | taskTerminalBound record => record.record
  | taskRetirementPending record => record.record

/-- A `CatalogEntry` of the link store. -/
inductive LinkEntry [ReceiptCodec] where
  | reservation (held : TaskLinkReservation)
  | link (record : TaskLifecycleLinkRecord)
  deriving DecidableEq

def LinkEntry.header [ReceiptCodec] : LinkEntry → LifecycleLinkRecordHeader
  | .reservation held => held.header
  | .link record => record.header

def LinkEntry.keyDigest [ReceiptCodec] (entry : LinkEntry) : ReceiptKeyDigest :=
  receiptKeyDigest entry.header.key

/-! ## The stored form -/

structure StoredTaskProjection where
  createdAtEpochMs : EpochMs
  updatedAtEpochMs : EpochMs
  ttlMs : Nat
  pollIntervalMs : Nat
  version : Nat
  deriving DecidableEq

/-- What every stored link starts with. The schema version is a constant of the build. -/
structure StoredHead where
  key : ReceiptKey
  workspaceIdentityHash : SafeIdentityHash
  taskLinkDigest : TaskLinkDigest
  version : Nat
  mutationSequence : Nat
  deriving DecidableEq

inductive StoredEntry where
  | reservation (head : StoredHead)
  | taskBound (head : StoredHead) (task : StoredTaskProjection) (taskRecordVersion : Nat)
      (bindEpochMs : EpochMs) (phase : AttemptPhase)
  | taskTerminalBound (head : StoredHead) (task : StoredTaskProjection) (taskRecordVersion : Nat)
      (terminalStatus : ClosedTerminalStatus) (terminalDigest : TerminalDigest)
      (terminalEpochMs expiresAtEpochMs : EpochMs)
  | taskRetirementPending (head : StoredHead) (task : StoredTaskProjection)
      (expectedTerminalTaskVersion : Nat) (terminalStatus : ClosedTerminalStatus)
      (terminalDigest : TerminalDigest) (terminalEpochMs expiresAtEpochMs : EpochMs)
      (retainedLinkBytes invocationIndexBytes reservedTaskIndexBytes : Nat)
  deriving DecidableEq

/-! ## The length of its JSON -/

/-- The length of an object from its field names and the lengths of their values. Each field takes
two quotes, a colon and a comma or the closing brace. -/
def objectLength (fields : List String) (values : List Nat) : Nat :=
  1 + (fields.map fun field => field.length + 4).sum + values.sum

def numberLength (n : Nat) : Nat := Nat.log 10 n + 1

def textLength (text : String) : Nat := text.length + 2

/-- A quoted UUID. -/
def uuidLength : Nat := 38

/-- A quoted SHA-256 in hexadecimal. -/
def digestLength : Nat := 66

def keyLength (key : ReceiptKey) : Nat :=
  objectLength ["invocationId", "reservedTaskId", "coreIdentityDigest", "tool", "normalizedArgumentsHash",
      "requestScopeHash"]
    [uuidLength, uuidLength, digestLength, textLength key.tool.wireName, digestLength, digestLength]

def linkLength : Nat :=
  objectLength ["workspaceIdentityHash", "taskLinkDigest"] [digestLength, digestLength]

def StoredTaskProjection.encodedLen (task : StoredTaskProjection) : Nat :=
  objectLength ["createdAtEpochMs", "updatedAtEpochMs", "ttlMs", "pollIntervalMs", "version"]
    [numberLength task.createdAtEpochMs, numberLength task.updatedAtEpochMs, numberLength task.ttlMs,
      numberLength task.pollIntervalMs, numberLength task.version]

def phaseLength : AttemptPhase → Nat
  | .notBegun => textLength "not_begun"
  | .begun => textLength "begun"

def statusLength : ClosedTerminalStatus → Nat
  | .completed => textLength "completed"
  | .failed => textLength "failed"
  | .cancelled => textLength "cancelled"

def StoredEntry.encodedLen : StoredEntry → Nat
  | reservation head =>
      objectLength ["state", "schemaVersion", "key", "link", "reservationVersion", "mutationSequence"]
        [textLength "reservation", 1, keyLength head.key, linkLength, numberLength head.version,
          numberLength head.mutationSequence]
  | taskBound head task taskRecordVersion bindEpochMs phase =>
      objectLength ["state", "schemaVersion", "key", "link", "task", "lifecycleLinkVersion",
          "mutationSequence", "taskRecordVersion", "bindEpochMs", "phase"]
        [textLength "task_bound", 1, keyLength head.key, linkLength, task.encodedLen,
          numberLength head.version, numberLength head.mutationSequence, numberLength taskRecordVersion,
          numberLength bindEpochMs, phaseLength phase]
  | taskTerminalBound head task taskRecordVersion status _ terminalEpochMs expiresAtEpochMs =>
      objectLength ["state", "schemaVersion", "key", "link", "task", "lifecycleLinkVersion",
          "mutationSequence", "taskRecordVersion", "terminalStatus", "terminalDigest", "terminalEpochMs",
          "expiresAtEpochMs"]
        [textLength "task_terminal_bound", 1, keyLength head.key, linkLength, task.encodedLen,
          numberLength head.version, numberLength head.mutationSequence, numberLength taskRecordVersion,
          statusLength status, digestLength, numberLength terminalEpochMs, numberLength expiresAtEpochMs]
  | taskRetirementPending head task expectedTerminalTaskVersion status _ terminalEpochMs expiresAtEpochMs
      retainedLinkBytes invocationIndexBytes reservedTaskIndexBytes =>
      objectLength ["state", "schemaVersion", "key", "link", "task", "lv", "ms", "tv", "ts", "td", "te",
          "ex", "l", "i", "r"]
        [textLength "task_retirement_pending", 1, keyLength head.key, linkLength, task.encodedLen,
          numberLength head.version, numberLength head.mutationSequence,
          numberLength expectedTerminalTaskVersion, statusLength status, digestLength,
          numberLength terminalEpochMs, numberLength expiresAtEpochMs, numberLength retainedLinkBytes,
          numberLength invocationIndexBytes, numberLength reservedTaskIndexBytes]

theorem StoredEntry.encodedLen_pos (entry : StoredEntry) : 0 < entry.encodedLen := by
  have hobject : ∀ fields values, 0 < objectLength fields values := by
    unfold objectLength
    omega
  cases entry <;> exact hobject _ _

/-! ## Reading and writing the stored form -/

section Stored

variable [ReceiptCodec]

/-- `TaskLinkReference::new` for the Task and invocation of the key. -/
def linkReference (key : ReceiptKey) (workspace : SafeIdentityHash) : TaskLinkIdentity :=
  ⟨receiptKeyDigest key, key.reservedTaskId, key.invocationId, workspace⟩

def StoredHead.fromHeader (header : LifecycleLinkRecordHeader) : StoredHead where
  key := header.key
  workspaceIdentityHash := header.link.workspaceIdentityHash
  taskLinkDigest := ReceiptCodec.taskLinkDigest header.link
  version := header.lifecycleLinkVersion
  mutationSequence := header.mutationSequence

def StoredHead.intoHeader (head : StoredHead) (encodedBytes : Nat) :
    Except LinkStoreError LifecycleLinkRecordHeader := do
  let link := linkReference head.key head.workspaceIdentityHash
  refuseIf (ReceiptCodec.taskLinkDigest link ≠ head.taskLinkDigest)
    (.corrupt "persisted lifecycle-link digest does not match its exact identity")
  applicationCorruption
    (LifecycleLinkRecordHeader.new head.key link head.version head.mutationSequence encodedBytes)

def StoredTaskProjection.fromApplication (task : ReceiptTaskProjection) : StoredTaskProjection :=
  ⟨task.createdAtEpochMs, task.updatedAtEpochMs, task.ttlMs, task.pollIntervalMs, task.version⟩

def StoredTaskProjection.intoApplication (task : StoredTaskProjection) (key : ReceiptKey) :
    Except LinkStoreError ReceiptTaskProjection :=
  applicationCorruption (ReceiptTaskProjection.new ⟨key.reservedTaskId, key.invocationId, task.createdAtEpochMs,
    task.updatedAtEpochMs, task.ttlMs, task.pollIntervalMs, task.version⟩)

def StoredEntry.fromCatalogEntry : LinkEntry → StoredEntry
  | .reservation r => .reservation (.fromHeader r.header)
  | .link (.taskBound r) => .taskBound (.fromHeader r.record) (.fromApplication r.task)
      r.taskRecordVersion r.bindEpochMs r.phase
  | .link (.taskTerminalBound r) => .taskTerminalBound (.fromHeader r.record) (.fromApplication r.task)
      r.taskRecordVersion r.terminalStatus r.terminalDigest r.terminalEpochMs r.expiresAtEpochMs
  | .link (.taskRetirementPending r) => .taskRetirementPending (.fromHeader r.record)
      (.fromApplication r.task) r.expectedTerminalTaskVersion r.terminalStatus r.terminalDigest
      r.terminalEpochMs r.expiresAtEpochMs r.retainedLinkBytes
      r.retainedDualIdAccounting.invocationIndexBytes r.retainedDualIdAccounting.reservedTaskIndexBytes

def StoredEntry.intoCatalogEntry (stored : StoredEntry) : Except LinkStoreError LinkEntry :=
  match stored with
  | reservation head => do
      refuseIf (head.version = 0 ∨ head.mutationSequence = 0)
        (.corrupt "lifecycle-link reservation has a zero version")
      let header ← head.intoHeader stored.encodedLen
      pure (.reservation ⟨header⟩)
  | taskBound head task taskRecordVersion bindEpochMs phase => do
      let header ← head.intoHeader stored.encodedLen
      let task ← task.intoApplication head.key
      let record ← applicationCorruption
        (TaskBoundReceipt.new header task taskRecordVersion bindEpochMs phase)
      pure (.link (.taskBound record))
  | taskTerminalBound head task taskRecordVersion status digest terminalEpochMs expiresAtEpochMs => do
      let header ← head.intoHeader stored.encodedLen
      let task ← task.intoApplication head.key
      let record ← applicationCorruption
        (TaskTerminalBoundReceipt.new header task taskRecordVersion status digest terminalEpochMs
          expiresAtEpochMs)
      pure (.link (.taskTerminalBound record))
  | taskRetirementPending head task expectedTerminalTaskVersion status digest terminalEpochMs
      expiresAtEpochMs retainedLinkBytes invocationIndexBytes reservedTaskIndexBytes => do
      let header ← head.intoHeader stored.encodedLen
      let accounting ← applicationCorruption
        (RetainedDualIdAccounting.new invocationIndexBytes reservedTaskIndexBytes)
      let task ← task.intoApplication head.key
      let record ← applicationCorruption (TaskRetirementPendingReceipt.new header task
        expectedTerminalTaskVersion status digest terminalEpochMs expiresAtEpochMs retainedLinkBytes
        accounting)
      pure (.link (.taskRetirementPending record))

/-! ## Building a link -/

/-- A link is built with a provisional length of one byte, measured, and built again with the length
it has. -/
def measured {α : Type} (entry : α → LinkEntry) (make : Nat → Except ReceiptLedgerError α) :
    Except LinkStoreError α := do
  let provisional ← applicationCorruption (make 1)
  let encodedLen := (StoredEntry.fromCatalogEntry (entry provisional)).encodedLen
  ensureRecordSize encodedLen
  applicationCorruption (make encodedLen)

def buildReservation (key : ReceiptKey) (link : TaskLinkIdentity) (mutationSequence : Nat) :
    Except LinkStoreError TaskLinkReservation :=
  measured .reservation fun bytes => do
    let header ← LifecycleLinkRecordHeader.new key link 1 mutationSequence bytes
    pure ⟨header⟩

def buildTaskBound (key : ReceiptKey) (link : TaskLinkIdentity) (task : ReceiptTaskProjection)
    (lifecycleLinkVersion mutationSequence taskRecordVersion : Nat) (bindEpochMs : EpochMs)
    (phase : AttemptPhase) : Except LinkStoreError TaskBoundReceipt :=
  measured (fun record => .link (.taskBound record)) fun bytes => do
    let header ← LifecycleLinkRecordHeader.new key link lifecycleLinkVersion mutationSequence bytes
    TaskBoundReceipt.new header task taskRecordVersion bindEpochMs phase

def buildTaskTerminalBound (key : ReceiptKey) (link : TaskLinkIdentity) (task : ReceiptTaskProjection)
    (lifecycleLinkVersion mutationSequence taskRecordVersion : Nat) (status : ClosedTerminalStatus)
    (digest : TerminalDigest) (terminalEpochMs expiresAtEpochMs : EpochMs) :
    Except LinkStoreError TaskTerminalBoundReceipt :=
  measured (fun record => .link (.taskTerminalBound record)) fun bytes => do
    let header ← LifecycleLinkRecordHeader.new key link lifecycleLinkVersion mutationSequence bytes
    TaskTerminalBoundReceipt.new header task taskRecordVersion status digest terminalEpochMs
      expiresAtEpochMs

def buildTaskRetirementPending (expected : TaskTerminalBoundReceipt)
    (lifecycleLinkVersion mutationSequence invocationIndexBytes reservedTaskIndexBytes : Nat) :
    Except LinkStoreError TaskRetirementPendingReceipt := do
  let accounting ← applicationCorruption
    (RetainedDualIdAccounting.new invocationIndexBytes reservedTaskIndexBytes)
  measured (fun record => .link (.taskRetirementPending record)) fun bytes => do
    let header ← LifecycleLinkRecordHeader.new expected.record.key expected.record.link
      lifecycleLinkVersion mutationSequence bytes
    TaskRetirementPendingReceipt.new header expected.task expected.taskRecordVersion
      expected.terminalStatus expected.terminalDigest expected.terminalEpochMs
      expected.expiresAtEpochMs expected.record.encodedBytes accounting

end Stored

end Unica.Link
