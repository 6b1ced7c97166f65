import Unica.Receipt.Records

/-!
# Encoding, decoding and validating rows

The reader's side of a row: its JSON document is a `PersistedRow`, its length is
the codec's, and `validateActiveRecord` is the one place that decides whether a
row is legal. Nothing here is consulted by the writers before a single row is
published.
-/

namespace Unica.Receipt

open Lib ReceiptCodec StoredActiveLifecycle

namespace StoredActiveLifecycle

/-- The byte limit of a row of this lifecycle. -/
def byteLimit : StoredActiveLifecycle → Nat
  | cancelReserved .. | expiredDeletion .. | expiredTombstoneDeletion .. | expiredDirectDeletion ..
  | expiredTaskReceiptDeletion .. | acknowledgementCommit .. => maxCancelReservedRecordBytes
  | completedTaskHandoffDeletion .. => maxCompletedTaskHandoffWitnessBytes
  | taskHandoffActorBound _ _ _ _ _ _ (.staged ..) => maxReceiptEntitlementBytes
  | reservedUnbound .. | reservedActorBound .. | reservedBegun .. | taskPromisedUnbound ..
  | taskPromisedActorBound .. | taskHandoffActorBound .. | taskReceiptOwnedActorBound .. =>
      maxTaskRecordEnvelopeBytes
  | directTerminalUnacked .. | taskTerminalReceiptBacked .. => maxReceiptEntitlementBytes
  | acknowledgedTombstone .. => maxAcknowledgedTombstoneBytes

theorem byteLimit_le (l : StoredActiveLifecycle) : l.byteLimit ≤ maxReceiptEntitlementBytes := by
  unfold byteLimit
  split <;> decide

def isDirectTerminal : StoredActiveLifecycle → Bool
  | directTerminalUnacked .. => true
  | _ => false

end StoredActiveLifecycle

/-- The document a record is written as. -/
def StoredActiveReceipt.persist (record : StoredActiveReceipt) : PersistedRow :=
  match record.lifecycle with
  | .acknowledgedTombstone digest acknowledgedAt =>
      .tombstone record.key digest acknowledgedAt
        (if record.recordVersion.get = 3 then none else some record.recordVersion)
  | _ => .active record

section Codec

variable [ReceiptCodec]

/-- The record a document stands for. A compact tombstone carries no sequence of its own. -/
def PersistedRow.record (row : PersistedRow) (tombstoneSequence : Nat) : StoredActiveReceipt :=
  match row with
  | .active record => record
  | .tombstone key digest acknowledgedAt version =>
      { schemaVersion := receiptRecordSchemaVersion
        mutationSequence := tombstoneSequence
        recordVersion := version.getD .tombstoneMarker
        key
        keyDigest := receiptKeyDigest key
        lifecycle := .acknowledgedTombstone digest acknowledgedAt }

/-- A record together with the fact that its document fits the entitlement. -/
structure EncodedRecord where
  record : StoredActiveReceipt
  length_le : rowLength record.persist ≤ maxReceiptEntitlementBytes

namespace EncodedRecord

def row (r : EncodedRecord) : PersistedRow := r.record.persist

def entry (r : EncodedRecord) : CatalogEntry :=
  { record := r.record
    encodedBytes := rowLength r.row
    encoded_pos := rowLength_pos _
    encoded_le := r.length_le }

end EncodedRecord

variable {record : StoredActiveReceipt} {row : PersistedRow}

/-- Sole serializer for records other than Direct terminals. -/
def serializeReservedRecord (record : StoredActiveReceipt) (maximumEncodedBytes : Nat) :
    Except ReceiptLedgerError EncodedRecord := do
  refuseIf record.lifecycle.isDirectTerminal
    (.corrupt "Direct terminal rows must use the sole v5 terminal codec")
  refuseIf record.lifecycle.resultBodyIsOnDisk
    (.corrupt "a catalog record without its result body cannot be written")
  if h : rowLength record.persist ≤ maximumEncodedBytes
      ∧ rowLength record.persist ≤ maxReceiptEntitlementBytes then
    pure ⟨record, h.2⟩
  else .error .recordTooLarge

theorem serializeReservedRecord_ok {limit : Nat} {r : EncodedRecord}
    (h : serializeReservedRecord record limit = .ok r) :
    r.record = record ∧ record.lifecycle.isDirectTerminal = false
      ∧ record.lifecycle.resultBodyIsOnDisk = false
      ∧ rowLength record.persist ≤ limit := by
  simp only [serializeReservedRecord, refuseIf_bind_eq_ok, Bool.not_eq_true] at h
  obtain ⟨hdirect, hbody, h⟩ := h
  split at h
  case isTrue hle =>
    cases h
    exact ⟨rfl, hdirect, hbody, hle.1⟩
  case isFalse => cases h

def validatePersistedReservedRecordBytes (record : StoredActiveReceipt) (row : PersistedRow) :
    Except ReceiptLedgerError Unit := do
  refuseIf record.lifecycle.isDirectTerminal
    (.corrupt "non-terminal receipt validator received a Direct terminal lifecycle")
  let canonical ← serializeReservedRecord record record.lifecycle.byteLimit
  refuseIf (canonical.row ≠ row) (.corrupt "receipt row is not canonical JSON")

/-- The Task fields every Task row repeats. -/
def taskContradictsKey (key : ReceiptKey) (task : StoredTask) : Prop :=
  task.taskId ≠ key.reservedTaskId ∨ task.invocationId ≠ key.invocationId
    ∨ task.updatedAtEpochMs < task.createdAtEpochMs
    ∨ task.ttlMs = 0 ∨ task.pollIntervalMs = 0 ∨ task.version = 0

instance (key : ReceiptKey) (task : StoredTask) : Decidable (taskContradictsKey key task) :=
  inferInstanceAs (Decidable (_ ∨ _))

def storedLinkDigest (record : StoredActiveReceipt) (task : StoredTask)
    (workspaceIdentityHash : SafeIdentityHash) : TaskLinkDigest :=
  taskLinkDigest
    ⟨record.keyDigest, task.taskId, task.invocationId, workspaceIdentityHash⟩

def ProvenTaskLinkCapacity.isExhausted : ProvenTaskLinkCapacity → Bool
  | .count observed maximum => decide (0 < maximum ∧ maximum ≤ observed)
  | .bytes required available => decide (0 < required ∧ available < required)

def AttemptPhase.minimumVersion : AttemptPhase → Nat
  | .notBegun => 3
  | .begun => 4

/-- The lifecycle part of `validate_active_record`. -/
def validateLifecycle (record : StoredActiveReceipt) (row : PersistedRow) :
    Except ReceiptLedgerError Unit :=
  match record.lifecycle with
  | .cancelReserved cancelReservedAt expiresAt cancelRequested => do
      refuseIf (record.recordVersion ≠ .initial)
        (.corrupt "CancelReserved receipt must retain its initial record version")
      refuseIf (cancelRequested = false)
        (.corrupt "CancelReserved receipt must persist cancelRequested=true")
      if record.schemaVersion = receiptRecordSchemaVersion then do
        let expiry ← okOr (.corrupt "legacy cancellation expiry exceeds u64")
          (checkedAdd wordBound cancelReservedAt legacyCancelReservationTtlMs)
        refuseIf (expiresAt ≠ some expiry) (.corrupt "legacy cancellation expiry is invalid")
  | .expiredDeletion observedAt priorVersion priorSequence priorReservedAt priorExpiresAt => do
      refuseIf (priorVersion ≠ .initial)
        (.corrupt "expired deletion witness predecessor is not an initial CancelReserved")
      refuseIf (priorVersion.checkedNext ≠ some record.recordVersion)
        (.corrupt "expired deletion witness does not advance its predecessor version")
      refuseIf (priorSequence = 0 ∨ record.mutationSequence ≤ priorSequence)
        (.corrupt "expired deletion witness does not follow its predecessor mutation")
      refuseIf (checkedAdd wordBound priorReservedAt legacyCancelReservationTtlMs
          ≠ some priorExpiresAt)
        (.corrupt "expired deletion witness predecessor expiry is not its fixed absolute TTL")
      refuseIf (observedAt < priorExpiresAt)
        (.corrupt "expired deletion witness predates the absolute expiry boundary")
  | .expiredTombstoneDeletion observedAt priorAcknowledgedAt _ => do
      refuseIf (record.recordVersion.get ≠ 4)
        (.corrupt "expired tombstone deletion witness has an invalid record version")
      let expires ← okOr (.corrupt "expired tombstone deletion witness expiry exceeds u64")
        (checkedAdd wordBound priorAcknowledgedAt acknowledgedTombstoneTtlMs)
      refuseIf (observedAt < expires)
        (.corrupt "expired tombstone deletion witness predates the absolute expiry boundary")
  | .expiredDirectDeletion observedAt priorVersion priorSequence priorTerminalEpoch _ => do
      refuseIf (priorVersion = .initial ∨ priorVersion.checkedNext ≠ some record.recordVersion)
        (.corrupt "expired Direct deletion witness does not advance a terminal predecessor")
      refuseIf (priorSequence = 0 ∨ record.mutationSequence ≤ priorSequence)
        (.corrupt "expired Direct deletion witness does not follow its predecessor mutation")
      let expires ← okOr (.corrupt "expired Direct deletion witness expiry exceeds u64")
        (checkedAdd wordBound priorTerminalEpoch directTerminalRetentionMs)
      refuseIf (observedAt < expires)
        (.corrupt "expired Direct deletion witness predates the absolute expiry boundary")
  | .expiredTaskReceiptDeletion observedAt priorVersion priorSequence priorTerminalEpoch priorTtl _ => do
      refuseIf (priorVersion = .initial ∨ priorVersion.checkedNext ≠ some record.recordVersion)
        (.corrupt "expired receipt-backed Task deletion witness does not advance a terminal predecessor")
      refuseIf (priorSequence = 0 ∨ record.mutationSequence ≤ priorSequence)
        (.corrupt "expired receipt-backed Task deletion witness does not follow its predecessor mutation")
      let expires ← okOr (.corrupt "expired receipt-backed Task deletion witness expiry exceeds u64")
        (checkedAdd wordBound priorTerminalEpoch priorTtl)
      refuseIf (priorTtl = 0 ∨ observedAt < expires)
        (.corrupt "expired receipt-backed Task deletion witness predates the absolute expiry boundary")
  | .completedTaskHandoffDeletion w =>
      refuseIf (w.priorRecordVersion.get < w.phase.minimumVersion
          ∨ w.priorRecordVersion.checkedNext ≠ some record.recordVersion
          ∨ w.priorMutationSequence = 0
          ∨ record.mutationSequence ≤ w.priorMutationSequence
          ∨ w.priorTaskVersion = 0
          ∨ (if w.terminalStaged then w.taskRecordVersion ≤ w.priorTaskVersion
              else w.taskRecordVersion ≠ w.priorTaskVersion)
          ∨ w.taskBoundLifecycleLinkVersion = 0
          ∨ w.taskBoundMutationSequence = 0
          ∨ w.bindEpochMs < w.priorCreatedAtEpochMs
          ∨ taskLinkDigest ⟨record.keyDigest, record.key.reservedTaskId,
              record.key.invocationId, w.workspaceIdentityHash⟩ ≠ w.taskLinkDigest)
        (.corrupt "completed Task handoff witness contradicts its receipt or confirmed TaskBound")
  | .reservedUnbound reservedAt cutoff _ | .reservedActorBound reservedAt cutoff _ _
  | .reservedBegun reservedAt cutoff _ _ =>
      refuseIf (reservedAt ≠ cutoff.acceptedEpochMs)
        (.corrupt "receipt reserve epoch does not match its accepted request epoch")
  | .taskPromisedUnbound cutoff task _ =>
      refuseIf (record.recordVersion = .initial ∨ taskContradictsKey record.key task
          ∨ task.createdAtEpochMs < cutoff.acceptedEpochMs)
        (.corrupt "promised Task row contradicts its receipt identity or lifecycle")
  | .taskPromisedActorBound cutoff task workspace linkDigest _ =>
      refuseIf (record.recordVersion.get < 3 ∨ taskContradictsKey record.key task
          ∨ task.createdAtEpochMs < cutoff.acceptedEpochMs
          ∨ storedLinkDigest record task workspace ≠ linkDigest)
        (.corrupt "actor-bound promised Task row contradicts its receipt or link identity")
  | .taskHandoffActorBound cutoff task workspace linkDigest phase _ stage => do
      refuseIf (record.recordVersion.get < phase.minimumVersion ∨ taskContradictsKey record.key task
          ∨ task.createdAtEpochMs < cutoff.acceptedEpochMs
          ∨ storedLinkDigest record task workspace ≠ linkDigest)
        (.corrupt "Task handoff row contradicts its receipt, attempt, or link identity")
      match stage with
      | .noTerminal => pure ()
      | .staged terminalEpoch digest terminal => do
          refuseIf (terminalEpoch < task.updatedAtEpochMs)
            (.corrupt "staged Task handoff terminal predates its Task projection")
          let _ ← restoreHeldTerminal terminal digest
  | .taskReceiptOwnedActorBound cutoff task workspace linkDigest capacity _ =>
      refuseIf (record.recordVersion.get < 5 ∨ taskContradictsKey record.key task
          ∨ task.createdAtEpochMs < cutoff.acceptedEpochMs
          ∨ storedLinkDigest record task workspace ≠ linkDigest
          ∨ capacity.isExhausted = false)
        (.corrupt
          "receipt-owned Task row contradicts its receipt, begun attempt, link, or capacity evidence")
  | .directTerminalUnacked _ terminalEpoch digest terminal => do
      refuseIf (record.recordVersion = .initial)
        (.corrupt "direct terminal receipt must advance its record version")
      let _ ← okOr (.corrupt "receipt terminal expiry exceeds u64")
        (checkedAdd wordBound terminalEpoch directTerminalRetentionMs)
      let _ ← restoreHeldTerminal terminal digest
      refuseIf (maxReceiptEntitlementBytes < rowLength record.persist) .recordTooLarge
      refuseIf (record.persist ≠ row) (.corrupt "receipt row is not canonical schema-v1 JSON")
  | .taskTerminalReceiptBacked task terminalEpoch digest terminal _ => do
      refuseIf (record.recordVersion = .initial ∨ taskContradictsKey record.key task
          ∨ task.updatedAtEpochMs ≠ terminalEpoch)
        (.corrupt "receipt-backed Task terminal has inconsistent identity or lifecycle metadata")
      let _ ← okOr (.corrupt "receipt-backed Task expiry exceeds u64")
        (checkedAdd wordBound terminalEpoch task.ttlMs)
      let _ ← restoreHeldTerminal terminal digest
  | .acknowledgementCommit _ acknowledgedAt priorVersion priorSequence => do
      refuseIf (priorVersion.checkedNext ≠ some record.recordVersion)
        (.corrupt "acknowledgement witness does not advance its predecessor version")
      refuseIf (priorSequence = 0 ∨ record.mutationSequence ≤ priorSequence)
        (.corrupt "acknowledgement witness does not follow its predecessor mutation")
      let _ ← okOr (.corrupt "acknowledgement witness expiry exceeds u64")
        (checkedAdd wordBound acknowledgedAt acknowledgedTombstoneTtlMs)
  | .acknowledgedTombstone _ acknowledgedAt => do
      refuseIf (record.recordVersion.get < 3)
        (.corrupt "acknowledged tombstone must follow a direct terminal record")
      let _ ← okOr (.corrupt "acknowledged tombstone expiry exceeds u64")
        (checkedAdd wordBound acknowledgedAt acknowledgedTombstoneTtlMs)

/-- A cancellation without a fixed expiry is the only row of the second schema. -/
def schemaIsSupported (record : StoredActiveReceipt) : Bool :=
  decide (record.schemaVersion = receiptRecordSchemaVersion)
    || (decide (record.schemaVersion = persistentCancelRecordSchemaVersion)
      && match record.lifecycle with
        | .cancelReserved _ none _ => true
        | _ => false)

def validateActiveRecord (record : StoredActiveReceipt) (row : PersistedRow)
    (expectedDigest : ReceiptKeyDigest) : Except ReceiptLedgerError Unit := do
  refuseIf (schemaIsSupported record = false) (.corrupt "receipt row schema version is unsupported")
  refuseIf (record.mutationSequence = 0 ∧ record.lifecycle.isTombstone = false)
    (.corrupt "receipt mutation sequence must be positive")
  refuseIf (record.keyDigest ≠ expectedDigest
      ∨ receiptKeyDigest record.key ≠ record.keyDigest)
    (.corrupt "receipt row digest does not match its name and exact key")
  validateLifecycle record row
  refuseIf (record.lifecycle.byteLimit < rowLength row)
    (.corrupt "persisted receipt row exceeds its byte limit")

theorem validatePersistedReservedRecordBytes_ok
    (h : validatePersistedReservedRecordBytes record row = .ok ()) : record.persist = row := by
  simp only [validatePersistedReservedRecordBytes, bind_eq_ok, exists_unit, refuseIf_eq_ok,
    not_not] at h
  obtain ⟨-, canonical, hserialize, hrow⟩ := h
  rw [← hrow, EncodedRecord.row, (serializeReservedRecord_ok hserialize).1]

theorem validateActiveRecord_ok
    {digest : ReceiptKeyDigest} (h : validateActiveRecord record row digest = .ok ()) :
    schemaIsSupported record = true
      ∧ (record.lifecycle.isTombstone = false → record.mutationSequence ≠ 0)
      ∧ record.keyDigest = digest ∧ receiptKeyDigest record.key = record.keyDigest
      ∧ validateLifecycle record row = .ok ()
      ∧ rowLength row ≤ record.lifecycle.byteLimit := by
  simp only [validateActiveRecord, bind_eq_ok, exists_unit, refuseIf_eq_ok] at h
  obtain ⟨hschema, hseq, hdigest, hlife, hlen⟩ := h
  refine ⟨?_, fun ht h0 => hseq ⟨h0, ht⟩, ?_, ?_, hlife, Nat.le_of_not_lt hlen⟩
  · exact Bool.of_not_eq_false hschema
  · exact not_not.mp fun hne => hdigest (.inl hne)
  · exact not_not.mp fun hne => hdigest (.inr hne)

/-- The canonical form of a row is checked again after validation, except where the Direct
codec has done so. -/
def checkCanonicalForm (skipped : Bool) (record : StoredActiveReceipt) (row : PersistedRow) :
    Except ReceiptLedgerError Unit :=
  if skipped then .ok () else validatePersistedReservedRecordBytes record row

/-- The lifecycles missing from the list the row reader re-checks. -/
def StoredActiveLifecycle.readerSkipsCanonicalForm : StoredActiveLifecycle → Bool
  | .directTerminalUnacked .. | .expiredTaskReceiptDeletion .. => true
  | _ => false

/-- `read_active_record_from_retained`: the entry a row file stands for. -/
def readActiveRecord (row : PersistedRow) (digest : ReceiptKeyDigest) :
    Except ReceiptLedgerError CatalogEntry :=
  if h : rowLength row ≤ maxReceiptEntitlementBytes then do
    validateActiveRecord (row.record 0) row digest
    checkCanonicalForm (row.record 0).lifecycle.readerSkipsCanonicalForm (row.record 0) row
    pure ⟨row.record 0, rowLength row, rowLength_pos row, h⟩
  else .error (.corrupt "persisted receipt row exceeds its byte limit")

/-- A record decoded from an envelope, validated against its own digest. -/
def catalogEntryFromBatchRecord (record : StoredActiveReceipt) (row : PersistedRow) :
    Except ReceiptLedgerError Unit := do
  validateActiveRecord record row record.keyDigest
  checkCanonicalForm record.lifecycle.isDirectTerminal record row

theorem validateLifecycle_direct_persist (hdirect : record.lifecycle.isDirectTerminal = true)
    (h : validateLifecycle record row = .ok ()) : record.persist = row := by
  unfold validateLifecycle at h
  split at h <;> simp_all only [isDirectTerminal, Bool.false_eq_true]
  simp only [bind_eq_ok, exists_unit, refuseIf_eq_ok, not_not] at h
  obtain ⟨-, -, -, -, -, -, hrow⟩ := h
  exact hrow

theorem catalogEntryFromBatchRecord_persist
    (h : catalogEntryFromBatchRecord record row = .ok ()) : record.persist = row := by
  simp only [catalogEntryFromBatchRecord, bind_eq_ok, exists_unit] at h
  obtain ⟨hvalid, hcanonical⟩ := h
  unfold checkCanonicalForm at hcanonical
  split at hcanonical
  case isTrue hdirect =>
    exact validateLifecycle_direct_persist hdirect (validateActiveRecord_ok hvalid).2.2.2.2.1
  case isFalse => exact validatePersistedReservedRecordBytes_ok hcanonical

theorem catalogEntryFromBatchRecord_length (h : catalogEntryFromBatchRecord record row = .ok ()) :
    rowLength record.persist ≤ maxReceiptEntitlementBytes := by
  rw [catalogEntryFromBatchRecord_persist h]
  simp only [catalogEntryFromBatchRecord, bind_eq_ok, exists_unit] at h
  obtain ⟨hvalid, -⟩ := h
  exact (validateActiveRecord_ok hvalid).2.2.2.2.2.trans (byteLimit_le _)

/-- How a record is stored inside an envelope. -/
def EncodedRecord.stored (r : EncodedRecord) : StoredReceiptBatchRow :=
  ⟨r.record.mutationSequence, r.record.recordVersion, r.row⟩

def decodeReceiptBatchRow (stored : StoredReceiptBatchRow) :
    Except ReceiptLedgerError EncodedRecord := do
  let record := stored.persisted.record stored.mutationSequence
  refuseIf (record.lifecycle.isTombstone ∧ record.recordVersion ≠ stored.recordVersion)
    (.corrupt "receipt batch metadata contradicts its tombstone version")
  refuseIf (record.mutationSequence ≠ stored.mutationSequence
      ∨ record.recordVersion ≠ stored.recordVersion)
    (.corrupt "receipt batch metadata contradicts its persisted row")
  match h : catalogEntryFromBatchRecord record stored.persisted with
  | .ok () => .ok ⟨record, catalogEntryFromBatchRecord_length h⟩
  | .error e => .error e

def decodeReceiptBatchRows : List StoredReceiptBatchRow → Except ReceiptLedgerError (List EncodedRecord)
  | [] => pure []
  | stored :: rest => do
      let row ← decodeReceiptBatchRow stored
      let rows ← decodeReceiptBatchRows rest
      pure (row :: rows)

def encodeReceiptBatchEnvelope (rows : List EncodedRecord) :
    Except ReceiptLedgerError (List StoredReceiptBatchRow) := do
  refuseIf (rows = [] ∨ maxReceiptBatchEnvelopeRows < rows.length)
    (.corrupt "receipt batch has an unsupported row count")
  refuseIf (maxReceiptBatchBytes < batchLength (rows.map EncodedRecord.stored))
    .recordTooLarge
  pure (rows.map EncodedRecord.stored)

def decodeReceiptBatch (envelope : List StoredReceiptBatchRow) :
    Except ReceiptLedgerError (List EncodedRecord) := do
  refuseIf (maxReceiptBatchBytes < batchLength envelope) .recordTooLarge
  refuseIf (envelope = [] ∨ maxReceiptBatchEnvelopeRows < envelope.length)
    (.corrupt "receipt batch has an unsupported schema or row count")
  decodeReceiptBatchRows envelope

/-- The record of a Direct terminal, refused where its expiry or its length is out of range. -/
def encodeDirectRecord (record : StoredActiveReceipt) (terminalEpochMs : EpochMs) :
    Except ReceiptLedgerError EncodedRecord := do
  let _ ← okOr .timestampOverflow (checkedAdd wordBound terminalEpochMs directTerminalRetentionMs)
  if h : rowLength record.persist ≤ maxReceiptEntitlementBytes then pure ⟨record, h⟩
  else .error .recordTooLarge

def prepareDirectWireFrame (key : ReceiptKey) (terminal : V5CanonicalTerminal)
    (terminalEpochMs : EpochMs) : Except ReceiptLedgerError Unit :=
  refuseIf (maxReceiptEntitlementBytes
    < wireFrameLength key terminal.outcome terminalEpochMs) .recordTooLarge

/-- The Direct row of a write slot together with its response frame. -/
def prepareDirectTerminal (key : ReceiptKey) (committedVersion : ReceiptVersion)
    (mutationSequence : Nat) (originalCutoff : OriginalCutoffDescriptor)
    (terminal : V5CanonicalTerminal) (terminalEpochMs : EpochMs) :
    Except ReceiptLedgerError EncodedRecord := do
  let record ← encodeDirectRecord
    { schemaVersion := receiptRecordSchemaVersion
      mutationSequence, recordVersion := committedVersion, key
      keyDigest := receiptKeyDigest key
      lifecycle := .directTerminalUnacked originalCutoff terminalEpochMs terminal.digest
        (some terminal.outcome) } terminalEpochMs
  prepareDirectWireFrame key terminal terminalEpochMs
  pure record

/-- The response frame of a Direct terminal that is already committed. -/
def prepareCommittedDirectWire (receipt : DirectTerminalUnackedReceipt) :
    Except ReceiptLedgerError Unit := do
  let _ ← okOr .timestampOverflow
    (checkedAdd wordBound receipt.terminalEpochMs directTerminalRetentionMs)
  refuseIf (receipt.record.keyDigest ≠ receiptKeyDigest receipt.record.key)
    (.corrupt "committed Direct receipt key digest is inconsistent")
  refuseIf (receipt.record.recordVersion = .initial)
    (.corrupt "committed Direct receipt has no predecessor version")
  prepareDirectWireFrame receipt.record.key receipt.terminal receipt.terminalEpochMs

end Codec

end Unica.Receipt
