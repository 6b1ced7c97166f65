import Unica.Receipt.Types

/-!
# The in-memory receipt catalog

The index of all live receipts, the counters it keeps beside them, the five
validators that guard a change and the three commit functions that make it.
A commit function is unchecked: its additions and subtractions wrap, and it is
the validators that keep them in range.
-/

namespace Unica.Receipt

open Lib Option

/-- Name of a batch envelope file, random when the envelope is written. -/
abbrev BatchName := Nat

/-- A record with the length of its encoding. A record is encoded under a limit of at
most the entitlement, and no encoding is empty. -/
structure CatalogEntry where
  record : StoredActiveReceipt
  encodedBytes : Nat
  encoded_pos : 1 ≤ encodedBytes
  encoded_le : encodedBytes ≤ maxReceiptEntitlementBytes
  deriving DecidableEq

namespace CatalogEntry

def withoutResultBody (e : CatalogEntry) : CatalogEntry :=
  { e with record := e.record.withoutResultBody }

/-- Catalog and disk copies agree when everything but the body agrees. -/
def same (a b : CatalogEntry) : Prop :=
  a.encodedBytes = b.encodedBytes ∧ a.record.sameRecord b.record

instance (a b : CatalogEntry) : Decidable (a.same b) := inferInstanceAs (Decidable (_ ∧ _))

def isTombstone (e : CatalogEntry) : Bool := e.record.lifecycle.isTombstone

def reservedResultBytes (e : CatalogEntry) : Nat :=
  if e.record.lifecycle.holdsEntitlement then maxReceiptEntitlementBytes - e.encodedBytes else 0

def liveActualBytes (e : CatalogEntry) : Nat := if e.isTombstone then 0 else e.encodedBytes

def tombstoneBytes (e : CatalogEntry) : Nat := if e.isTombstone then e.encodedBytes else 0

/-- One for a live record, as `usize::from(!is_tombstone)`. -/
def liveCount (e : CatalogEntry) : Nat := if e.isTombstone then 0 else 1

def tombstoneCount (e : CatalogEntry) : Nat := if e.isTombstone then 1 else 0

/-- The deletion witnesses recovery unlinks. The task receipt deletion is not one of them. -/
def isExpiredDeletion (e : CatalogEntry) : Bool :=
  match e.record.lifecycle with
  | .expiredDeletion .. | .expiredTombstoneDeletion .. | .expiredDirectDeletion ..
  | .completedTaskHandoffDeletion .. => true
  | _ => false

def isAcknowledgementCommit (e : CatalogEntry) : Bool :=
  match e.record.lifecycle with
  | .acknowledgementCommit .. => true
  | _ => false

def directTerminalDigest (e : CatalogEntry) : Option TerminalDigest :=
  match e.record.lifecycle with
  | .directTerminalUnacked _ _ digest _ => some digest
  | _ => none

theorem same_iff {a b : CatalogEntry} : a.same b ↔ a.withoutResultBody = b.withoutResultBody := by
  simp only [same, withoutResultBody, StoredActiveReceipt.sameRecord, mk.injEq]
  exact and_comm

section

variable (e : CatalogEntry)

@[simp] theorem withoutResultBody_idem : e.withoutResultBody.withoutResultBody = e.withoutResultBody := by
  simp [withoutResultBody]

@[simp] theorem withoutResultBody_encodedBytes : e.withoutResultBody.encodedBytes = e.encodedBytes := rfl

@[simp] theorem withoutResultBody_key : e.withoutResultBody.record.key = e.record.key := rfl

@[simp] theorem withoutResultBody_keyDigest :
    e.withoutResultBody.record.keyDigest = e.record.keyDigest := rfl

@[simp] theorem withoutResultBody_mutationSequence :
    e.withoutResultBody.record.mutationSequence = e.record.mutationSequence := rfl

@[simp] theorem withoutResultBody_lifecycle :
    e.withoutResultBody.record.lifecycle = e.record.lifecycle.withoutResultBody := rfl

@[simp] theorem withoutResultBody_isTombstone : e.withoutResultBody.isTombstone = e.isTombstone := by
  simp [isTombstone]

@[simp] theorem withoutResultBody_reservedResultBytes :
    e.withoutResultBody.reservedResultBytes = e.reservedResultBytes := by
  simp [reservedResultBytes]

@[simp] theorem withoutResultBody_liveActualBytes :
    e.withoutResultBody.liveActualBytes = e.liveActualBytes := by
  simp [liveActualBytes]

@[simp] theorem withoutResultBody_tombstoneBytes :
    e.withoutResultBody.tombstoneBytes = e.tombstoneBytes := by
  simp [tombstoneBytes]

@[simp] theorem withoutResultBody_liveCount : e.withoutResultBody.liveCount = e.liveCount := by
  simp [liveCount]

@[simp] theorem withoutResultBody_tombstoneCount :
    e.withoutResultBody.tombstoneCount = e.tombstoneCount := by
  simp [tombstoneCount]

theorem tombstoneBytes_pos_iff : 0 < e.tombstoneBytes ↔ e.isTombstone = true := by
  have hpos := e.encoded_pos
  unfold tombstoneBytes
  split
  · simp_all only [iff_true]
    exact hpos
  · simp_all

end

end CatalogEntry

/-- The running counters of the catalog; the batch validators keep a copy of their own. -/
structure CatalogTotals where
  actualBytes : Nat
  reservedResultBytes : Nat
  tombstoneBytes : Nat
  liveRecords : Nat
  tombstoneRecords : Nat
  deriving DecidableEq

structure ReceiptCatalog extends CatalogTotals where
  records : Table ReceiptKeyDigest CatalogEntry
  batchBacking : Table ReceiptKeyDigest BatchName
  invocationIndex : Table InvocationId ReceiptKeyDigest
  reservedTaskIndex : Table TaskId ReceiptKeyDigest
  tombstoneCompactionBacking : Option BatchName
  unavailable : Bool
  deriving DecidableEq

namespace ReceiptCatalog

def empty : ReceiptCatalog :=
  { actualBytes := 0, reservedResultBytes := 0, tombstoneBytes := 0, liveRecords := 0
    tombstoneRecords := 0, records := ∅, batchBacking := ∅, invocationIndex := ∅
    reservedTaskIndex := ∅, tombstoneCompactionBacking := none, unavailable := false }

/-- `records.get(digest) == Some(entry)`. -/
def holds (c : ReceiptCatalog) (digest : ReceiptKeyDigest) (entry : CatalogEntry) : Bool :=
  (c.records.lookup digest).any fun stored => decide (stored.same entry)

variable {digest : ReceiptKeyDigest}

theorem holds_iff {c : ReceiptCatalog} {entry : CatalogEntry} :
    c.holds digest entry = true ↔ ∃ stored, c.records.lookup digest = some stored ∧ stored.same entry := by
  simp [holds, any_eq_true]

def contains (c : ReceiptCatalog) (digest : ReceiptKeyDigest) : Bool :=
  (c.records.lookup digest).isSome

theorem contains_eq_false {c : ReceiptCatalog} :
    c.contains digest = false ↔ c.records.lookup digest = none := by
  simp [contains]

/-- A live record other than the one at `except` already carries the sequence. -/
def sequenceTaken (c : ReceiptCatalog) (sequence : Nat) (except : Option ReceiptKeyDigest) : Bool :=
  c.records.existsValue fun digest stored =>
    some digest ≠ except ∧ stored.isTombstone = false ∧ stored.record.mutationSequence = sequence

end ReceiptCatalog

/-- Insertion refuses what a fresh admission may not do; while recovering, the same
collisions mean a damaged store. -/
def validateCatalogInsert (c : ReceiptCatalog) (entry : CatalogEntry) (recovering : Bool) :
    Except ReceiptLedgerError Unit := do
  let _ ← okOr (.corrupt "receipt catalog live count overflowed")
    (checkedAdd wordBound c.liveRecords entry.liveCount)
  let _ ← okOr (.corrupt "receipt catalog tombstone count overflowed")
    (checkedAdd wordBound c.tombstoneRecords entry.tombstoneCount)
  refuseIf (c.contains entry.record.keyDigest)
    (if recovering then .corrupt "receipt catalog contains a duplicate key digest"
      else .receiptDigestCollision)
  refuseIf ((c.invocationIndex.lookup entry.record.key.invocationId).isSome)
    (if recovering then .corrupt "receipt catalog contains a duplicate invocation id"
      else .invocationIdentityMismatch)
  refuseIf ((c.reservedTaskIndex.lookup entry.record.key.reservedTaskId).isSome)
    (if recovering then .corrupt "receipt catalog contains a duplicate reserved task id"
      else .reservedTaskIdentityMismatch)
  refuseIf (entry.isTombstone = false ∧ c.sequenceTaken entry.record.mutationSequence none)
    (.corrupt "receipt catalog contains a duplicate mutation sequence")
  let actual ← okOr .capacityExceeded (checkedAdd wordBound c.actualBytes entry.liveActualBytes)
  let reserved ← okOr .capacityExceeded
    (checkedAdd wordBound c.reservedResultBytes entry.reservedResultBytes)
  refuseIf (checkedAdd wordBound actual reserved = none)
    (if recovering then .corrupt "receipt catalog byte accounting overflowed" else .capacityExceeded)
  let _ ← okOr .tombstoneCapacityExceeded
    (checkedAdd wordBound c.tombstoneBytes entry.tombstoneBytes)

/-- The accounting of one row of an insertion batch. -/
def CatalogTotals.admit (t : CatalogTotals) (entry : CatalogEntry) :
    Except ReceiptLedgerError CatalogTotals := do
  let (live, tombstones) ←
    if entry.isTombstone then do
      let n ← okOr .tombstoneCapacityExceeded (checkedAdd wordBound t.tombstoneRecords 1)
      pure (t.liveRecords, n)
    else do
      let n ← okOr .capacityExceeded (checkedAdd wordBound t.liveRecords 1)
      pure (n, t.tombstoneRecords)
  let actual ← okOr .capacityExceeded (checkedAdd wordBound t.actualBytes entry.liveActualBytes)
  let reserved ← okOr .capacityExceeded
    (checkedAdd wordBound t.reservedResultBytes entry.reservedResultBytes)
  let tombstone ← okOr .tombstoneCapacityExceeded
    (checkedAdd wordBound t.tombstoneBytes entry.tombstoneBytes)
  pure ⟨actual, reserved, tombstone, live, tombstones⟩

/-- The loop of `validate_catalog_insert_batch`, with the sequences of the rows already seen. -/
def insertBatchLoop (c : ReceiptCatalog) :
    List CatalogEntry → List Nat → CatalogTotals → Except ReceiptLedgerError CatalogTotals
  | [], _, totals => pure totals
  | entry :: rest, seen, totals => do
      refuseIf (c.contains entry.record.keyDigest) .receiptDigestCollision
      refuseIf ((c.invocationIndex.lookup entry.record.key.invocationId).isSome)
        .invocationIdentityMismatch
      refuseIf ((c.reservedTaskIndex.lookup entry.record.key.reservedTaskId).isSome)
        .reservedTaskIdentityMismatch
      refuseIf (entry.record.mutationSequence ∈ seen)
        (.corrupt "receipt insertion batch reuses a mutation sequence")
      let totals ← totals.admit entry
      insertBatchLoop c rest (entry.record.mutationSequence :: seen) totals

def validateCatalogInsertBatch (c : ReceiptCatalog) (entries : List CatalogEntry) :
    Except ReceiptLedgerError Unit := do
  let totals ← insertBatchLoop c entries [] c.toCatalogTotals
  refuseIf (checkedAdd wordBound totals.actualBytes totals.reservedResultBytes = none) .capacityExceeded

def commitCatalogInsert (c : ReceiptCatalog) (entry : CatalogEntry) : ReceiptCatalog :=
  let entry := entry.withoutResultBody
  { c with
    actualBytes := wrappingAdd wordBound c.actualBytes entry.liveActualBytes
    reservedResultBytes := wrappingAdd wordBound c.reservedResultBytes entry.reservedResultBytes
    tombstoneBytes := wrappingAdd wordBound c.tombstoneBytes entry.tombstoneBytes
    tombstoneRecords :=
      if entry.isTombstone then wrappingAdd wordBound c.tombstoneRecords 1 else c.tombstoneRecords
    liveRecords :=
      if entry.isTombstone then c.liveRecords else wrappingAdd wordBound c.liveRecords 1
    invocationIndex := c.invocationIndex.insert entry.record.key.invocationId entry.record.keyDigest
    reservedTaskIndex :=
      c.reservedTaskIndex.insert entry.record.key.reservedTaskId entry.record.keyDigest
    records := c.records.insert entry.record.keyDigest entry }

def insertCatalogEntry (c : ReceiptCatalog) (entry : CatalogEntry) (recovering : Bool) :
    Except ReceiptLedgerError ReceiptCatalog := do
  validateCatalogInsert c entry recovering
  pure (commitCatalogInsert c entry)

/-- A retention period from a stored epoch is over at the observed one. -/
def retentionIsOver (since period observedAtEpochMs : Nat) : Bool :=
  (checkedAdd wordBound since period).any fun expires => decide (expires ≤ observedAtEpochMs)

def entryIsExpiredTombstone (entry : CatalogEntry) (observedAtEpochMs : EpochMs) : Bool :=
  match entry.record.lifecycle with
  | .acknowledgedTombstone _ acknowledgedAt =>
      retentionIsOver acknowledgedAt acknowledgedTombstoneTtlMs observedAtEpochMs
  | _ => false

def entryIsExpiredDirectTerminal (entry : CatalogEntry) (observedAtEpochMs : EpochMs) : Bool :=
  match entry.record.lifecycle with
  | .directTerminalUnacked _ terminalEpoch _ _ =>
      retentionIsOver terminalEpoch directTerminalRetentionMs observedAtEpochMs
  | _ => false

def entryIsExpiredTaskReceiptTerminal (entry : CatalogEntry) (observedAtEpochMs : EpochMs) : Bool :=
  match entry.record.lifecycle with
  | .taskTerminalReceiptBacked task terminalEpoch _ _ _ =>
      retentionIsOver terminalEpoch task.ttlMs observedAtEpochMs
  | _ => false

def catalogEntryIsExpiredIdentityReclaimable (c : ReceiptCatalog) (digest : ReceiptKeyDigest)
    (observedAtEpochMs : EpochMs) : Except ReceiptLedgerError Bool := do
  let entry ← okOr (.corrupt "receipt identity index points outside the catalog")
    (c.records.lookup digest)
  pure (entryIsExpiredTombstone entry observedAtEpochMs
    || entryIsExpiredDirectTerminal entry observedAtEpochMs)

def validateCatalogRemove (c : ReceiptCatalog) (expected : CatalogEntry) :
    Except ReceiptLedgerError Unit := do
  let digest := expected.record.keyDigest
  refuseIf (c.holds digest expected = false) (.corrupt "receipt catalog changed before exact removal")
  refuseIf (c.invocationIndex.lookup expected.record.key.invocationId ≠ some digest)
    (.corrupt "receipt invocation index changed before exact removal")
  refuseIf (c.reservedTaskIndex.lookup expected.record.key.reservedTaskId ≠ some digest)
    (.corrupt "receipt task index changed before exact removal")
  let _ ← okOr (.corrupt "receipt catalog actual-byte accounting underflowed")
    (checkedSub c.actualBytes expected.liveActualBytes)
  let _ ← okOr (.corrupt "receipt catalog reserved-byte accounting underflowed")
    (checkedSub c.reservedResultBytes expected.reservedResultBytes)
  let _ ← okOr (.corrupt "receipt catalog tombstone-byte accounting underflowed")
    (checkedSub c.tombstoneBytes expected.tombstoneBytes)

def commitCatalogRemove (c : ReceiptCatalog) (expected : CatalogEntry) : ReceiptCatalog :=
  { c with
    actualBytes := wrappingSub wordBound c.actualBytes expected.liveActualBytes
    reservedResultBytes := wrappingSub wordBound c.reservedResultBytes expected.reservedResultBytes
    tombstoneBytes := wrappingSub wordBound c.tombstoneBytes expected.tombstoneBytes
    tombstoneRecords :=
      if expected.isTombstone then wrappingSub wordBound c.tombstoneRecords 1 else c.tombstoneRecords
    liveRecords :=
      if expected.isTombstone then c.liveRecords else wrappingSub wordBound c.liveRecords 1
    invocationIndex := c.invocationIndex.erase expected.record.key.invocationId
    reservedTaskIndex := c.reservedTaskIndex.erase expected.record.key.reservedTaskId
    records := c.records.erase expected.record.keyDigest }

/-- `a.checked_sub(b).and_then(|n| n.checked_add(c))`. -/
def checkedExchange (a b c : Nat) : Option Nat :=
  (checkedSub a b).bind fun n => checkedAdd wordBound n c

@[simp] theorem checkedExchange_eq_some {a b c n : Nat} :
    checkedExchange a b c = some n ↔ b ≤ a ∧ a - b + c < wordBound ∧ a - b + c = n := by
  simp [checkedExchange, bind_eq_some_iff]

def validateCatalogReplace (c : ReceiptCatalog) (expected replacement : CatalogEntry) :
    Except ReceiptLedgerError Unit := do
  let digest := expected.record.keyDigest
  refuseIf (c.holds digest expected = false)
    (.corrupt "receipt catalog changed before exact replacement")
  refuseIf (replacement.record.keyDigest ≠ digest ∨ replacement.record.key ≠ expected.record.key)
    (.corrupt "receipt replacement changed its exact identity")
  refuseIf (replacement.isTombstone = false
      ∧ c.sequenceTaken replacement.record.mutationSequence (some digest))
    (.corrupt "receipt replacement reuses a mutation sequence")
  let _ ← okOr (.corrupt "receipt catalog live count overflowed or underflowed")
    (checkedExchange c.liveRecords expected.liveCount replacement.liveCount)
  let actual ← okOr (.corrupt "receipt catalog actual-byte accounting underflowed")
    (checkedExchange c.actualBytes expected.liveActualBytes replacement.liveActualBytes)
  let reserved ← okOr (.corrupt "receipt catalog reserved-byte accounting underflowed")
    (checkedExchange c.reservedResultBytes expected.reservedResultBytes
      replacement.reservedResultBytes)
  refuseIf (checkedAdd wordBound actual reserved = none) .capacityExceeded
  let _ ← okOr (.corrupt "receipt catalog tombstone count underflowed")
    (checkedExchange c.tombstoneRecords expected.tombstoneCount replacement.tombstoneCount)
  let _ ← okOr (.corrupt "receipt catalog tombstone-byte accounting underflowed")
    (checkedExchange c.tombstoneBytes expected.tombstoneBytes replacement.tombstoneBytes)

/-- The accounting of one pair of a replacement batch. -/
def CatalogTotals.exchange (t : CatalogTotals) (expected replacement : CatalogEntry) :
    Except ReceiptLedgerError CatalogTotals := do
  let live ← okOr (.corrupt "receipt batch live count underflowed")
    (checkedExchange t.liveRecords expected.liveCount replacement.liveCount)
  let tombstones ← okOr (.corrupt "receipt batch tombstone count underflowed")
    (checkedExchange t.tombstoneRecords expected.tombstoneCount replacement.tombstoneCount)
  let actual ← okOr (.corrupt "receipt batch actual-byte accounting underflowed")
    (checkedExchange t.actualBytes expected.liveActualBytes replacement.liveActualBytes)
  let reserved ← okOr (.corrupt "receipt batch reserved-byte accounting underflowed")
    (checkedExchange t.reservedResultBytes expected.reservedResultBytes
      replacement.reservedResultBytes)
  let tombstone ← okOr (.corrupt "receipt batch tombstone-byte accounting underflowed")
    (checkedExchange t.tombstoneBytes expected.tombstoneBytes replacement.tombstoneBytes)
  pure ⟨actual, reserved, tombstone, live, tombstones⟩

/-- The loop of `validate_catalog_replace_batch`, with the digests and the new sequences
of the pairs already seen. -/
def replaceBatchLoop (c : ReceiptCatalog) :
    List (CatalogEntry × CatalogEntry) → List ReceiptKeyDigest → List Nat → CatalogTotals →
      Except ReceiptLedgerError CatalogTotals
  | [], _, _, totals => pure totals
  | (expected, replacement) :: rest, digests, sequences, totals => do
      let digest := expected.record.keyDigest
      refuseIf (c.holds digest expected = false)
        (.corrupt "receipt catalog changed before exact batch replacement")
      refuseIf (replacement.record.keyDigest ≠ digest ∨ replacement.record.key ≠ expected.record.key
          ∨ digest ∈ digests)
        (.corrupt "receipt batch replacement changed or duplicated its exact identity")
      refuseIf (replacement.record.mutationSequence ∈ sequences)
        (.corrupt "receipt replacement batch reuses a mutation sequence")
      let totals ← totals.exchange expected replacement
      replaceBatchLoop c rest (digest :: digests) (replacement.record.mutationSequence :: sequences)
        totals

def validateCatalogReplaceBatch (c : ReceiptCatalog)
    (replacements : List (CatalogEntry × CatalogEntry)) : Except ReceiptLedgerError Unit := do
  let totals ← replaceBatchLoop c replacements [] [] c.toCatalogTotals
  refuseIf (checkedAdd wordBound totals.actualBytes totals.reservedResultBytes = none) .capacityExceeded

/-- `a - b + c` on machine words. -/
def wrappingExchange (a b c : Nat) : Nat := wrappingAdd wordBound (wrappingSub wordBound a b) c

/-- Replaces the entry at the replacement's digest. The source takes the previous entry with
`expect`; without one nothing changes here. A tombstone is told by its bytes. -/
def commitCatalogReplace (c : ReceiptCatalog) (replacement : CatalogEntry) : ReceiptCatalog :=
  let replacement := replacement.withoutResultBody
  match c.records.lookup replacement.record.keyDigest with
  | none => c
  | some previous =>
    let c' := { c with
      records := c.records.insert replacement.record.keyDigest replacement
      actualBytes := wrappingExchange c.actualBytes previous.liveActualBytes replacement.liveActualBytes
      reservedResultBytes := wrappingExchange c.reservedResultBytes previous.reservedResultBytes
        replacement.reservedResultBytes
      tombstoneBytes :=
        wrappingExchange c.tombstoneBytes previous.tombstoneBytes replacement.tombstoneBytes }
    match previous.isTombstone, decide (0 < replacement.tombstoneBytes) with
    | false, true => { c' with
        liveRecords := wrappingSub wordBound c.liveRecords 1
        tombstoneRecords := wrappingAdd wordBound c.tombstoneRecords 1 }
    | true, false => { c' with
        tombstoneRecords := wrappingSub wordBound c.tombstoneRecords 1
        liveRecords := wrappingAdd wordBound c.liveRecords 1 }
    | _, _ => c'

end Unica.Receipt
