import Unica.Receipt.Store

/-!
# Work under the writer lock: entering, looking up, reclaiming

What the operations share: how they enter, how they find a receipt and read it
back from its file, and the removal of receipts whose retention is over.
-/

namespace Unica.Receipt

open Lib Lib.Prog

variable [ReceiptCodec]

/-- The opening of most operations. -/
def enter : Ledger Unit := do
  lockCatalog
  refuseUnavailable
  latchCatalogResult verifyNamedAuthority

/-- An error of the computation latches the store. -/
def orLatch {α : Type} (result : Except ReceiptLedgerError α) : Ledger α :=
  latchCatalogResult (compute result)

/-- An error latches the store only where it asks for a reopen. -/
def orLatchIfReopen {α : Type} (result : Except ReceiptLedgerError α) : Ledger α :=
  match result with
  | .ok a => pure a
  | .error e => if e.requiresReopen then latchCatalogError e else throw e

def refuseWithLatch (p : Prop) [Decidable p] (e : ReceiptLedgerError) : Ledger Unit :=
  if p then latchCatalogError e else pure ()

def checkVersion (persisted : CatalogEntry) (expectedVersion : ReceiptVersion) : Ledger Unit :=
  compute (refuseIf (persisted.record.recordVersion ≠ expectedVersion)
    (.receiptVersionMismatch expectedVersion persisted.record.recordVersion))

/-- The file copy of a catalogued entry. -/
def readCatalogued (digest : ReceiptKeyDigest) (expected : CatalogEntry) : Ledger CatalogEntry := do
  match ← readEntryUnderWriterLock digest with
  | none => throw (.corrupt "catalogued receipt row is missing")
  | some persisted => do
      refuseWithLatch (¬ persisted.same expected)
        (.corrupt "catalogued receipt row changed on disk")
      pure persisted

/-- Find the receipt of a key and read it back. -/
def readExactEntry (key : ReceiptKey) : Ledger CatalogEntry := do
  let digest := receiptKeyDigest key
  let w ← get
  let expected ← compute (okOr .receiptNotFound (w.catalog.records.lookup digest))
  refuseWithLatch (expected.record.key ≠ key) .receiptDigestCollision
  readCatalogued digest expected

/-- Read the receipt of a key from its file first. -/
def readStoredEntry (key : ReceiptKey) : Ledger CatalogEntry := do
  match ← readEntryUnderWriterLock (receiptKeyDigest key) with
  | none => throw .receiptNotFound
  | some expected => do
      refuseWithLatch (expected.record.key ≠ key) .receiptDigestCollision
      pure expected

/-- Why a key has no receipt of its own. -/
def absenceError (c : ReceiptCatalog) (key : ReceiptKey) : ReceiptLedgerError :=
  if (c.invocationIndex.lookup key.invocationId).isSome then .invocationIdentityMismatch
  else if (c.reservedTaskIndex.lookup key.reservedTaskId).isSome then .reservedTaskIdentityMismatch
  else .receiptNotFound

def classifyExact (key : ReceiptKey) (c : ReceiptCatalog) : Except ReceiptLedgerError CatalogEntry :=
  match c.records.lookup (receiptKeyDigest key) with
  | some existing => if existing.record.key ≠ key then .error .receiptDigestCollision else .ok existing
  | none => .error (absenceError c key)

/-- Find the receipt of a key under a stable generation and read it back. -/
def readFencedEntry (key : ReceiptKey) : Ledger CatalogEntry := do
  let classified ← inspectCatalogUnderStableFence (classifyExact key)
  let expected ← orLatchIfReopen classified
  match ← readEntryUnderWriterLock (receiptKeyDigest key) with
  | none => latchCatalogError (.corrupt "catalogued receipt row is missing")
  | some persisted => do
      refuseWithLatch (¬ persisted.same expected) (.corrupt "catalogued receipt row changed on disk")
      pure persisted

def nextSequence (generation : Nat) : Except ReceiptLedgerError Nat :=
  okOr (.corrupt "receipt generation exhausted u64") (checkedAdd wordBound generation 1)

def nextMutationSequence : Ledger Nat := do
  let generation ← latchCatalogResult generationUnderWriterLock
  compute (nextSequence generation)

/-- Encode a successor of the receipt, check it against the catalog and commit it. -/
def replaceRow (persisted : CatalogEntry) (record : StoredActiveReceipt) (maximumEncodedBytes : Nat) :
    Ledger EncodedRecord := do
  let r ← compute (serializeReservedRecord record maximumEncodedBytes)
  let w ← get
  compute (validateCatalogReplace w.catalog persisted r.entry)
  commitReplacementRow r
  pure r

/-- The catalog entry an operation has just committed. -/
def committedEntry (digest : ReceiptKeyDigest) : Ledger CatalogEntry := do
  let w ← get
  compute (okOr (.commitUncertain digest) (w.catalog.records.lookup digest))

/-- As `committedEntry`, but it must be the record that was written. -/
def committedExactly (r : EncodedRecord) : Ledger CatalogEntry := do
  let w ← get
  match w.catalog.records.lookup r.record.keyDigest with
  | some committed => do
      refuseWithLatch (¬ committed.record.sameRecord r.record) (.commitUncertain r.record.keyDigest)
      pure committed
  | none => latchCatalogError (.commitUncertain r.record.keyDigest)

/-- What tells the three expiry reclaimers apart. `expiry` is `none` for a state of another
lifecycle. -/
structure ExpiryReclaimer where
  disappeared : String
  missing : String
  changedOnDisk : String
  changedLifecycle : String
  notExpired : String
  expiry : ReceiptState → Option (Except ReceiptLedgerError EpochMs)
  materializes : Bool
  build : CatalogEntry → EpochMs → Nat → Except ReceiptLedgerError StoredActiveReceipt

namespace ExpiryReclaimer

def expiresAt (p : ExpiryReclaimer) (persisted : CatalogEntry) : Ledger EpochMs := do
  let state ← orLatch persisted.state
  match p.expiry state with
  | some expires => compute expires
  | none => latchCatalogError (.corrupt p.changedLifecycle)

def reclaim (p : ExpiryReclaimer) (digest : ReceiptKeyDigest) (observedAtEpochMs : EpochMs) :
    Ledger Unit := do
  checkDeadline
  let w ← get
  let expected ← compute (okOr (.corrupt p.disappeared) (w.catalog.records.lookup digest))
  match ← readEntryUnderWriterLock digest with
  | none => throw (.corrupt p.missing)
  | some persisted => do
      refuseWithLatch (¬ persisted.same expected) (.corrupt p.changedOnDisk)
      let expires ← p.expiresAt persisted
      refuseWithLatch (observedAtEpochMs < expires) (.corrupt p.notExpired)
      if p.materializes then latchCatalogResult (materializeBatchBackedRecord digest) else pure ()
      let sequence ← nextMutationSequence
      let record ← compute (p.build persisted observedAtEpochMs sequence)
      let witness ← compute (serializeReservedRecord record maxCancelReservedRecordBytes)
      let w ← get
      orLatch (validateCatalogRemove w.catalog persisted)
      commitRemoval persisted witness

end ExpiryReclaimer

def tombstoneReclaimer : ExpiryReclaimer where
  disappeared := "expired tombstone disappeared while the writer lock was held"
  missing := "catalogued expired tombstone row is missing"
  changedOnDisk := "catalogued expired tombstone changed on disk"
  changedLifecycle := "expired tombstone candidate changed lifecycle under writer lock"
  notExpired := "selected acknowledged tombstone is not expired"
  expiry
    | .acknowledgedTombstone receipt =>
        some (.ok (receipt.acknowledgedAtEpochMs + acknowledgedTombstoneTtlMs))
    | _ => none
  materializes := false
  build := buildExpiredTombstoneDeletionRecord

def directTerminalReclaimer : ExpiryReclaimer where
  disappeared := "expired Direct receipt disappeared while the writer lock was held"
  missing := "catalogued expired Direct receipt row is missing"
  changedOnDisk := "catalogued expired Direct receipt changed on disk"
  changedLifecycle := "expired Direct candidate changed lifecycle under writer lock"
  notExpired := "selected Direct terminal is not expired"
  expiry
    | .directTerminalUnacked receipt => some (okOr (.corrupt "Direct terminal expiry exceeds u64")
        (checkedAdd wordBound receipt.terminalEpochMs directTerminalRetentionMs))
    | _ => none
  materializes := true
  build := buildExpiredDirectDeletionRecord

def taskReceiptTerminalReclaimer : ExpiryReclaimer where
  disappeared := "expired receipt-backed Task disappeared while the writer lock was held"
  missing := "catalogued expired receipt-backed Task row is missing"
  changedOnDisk := "catalogued expired receipt-backed Task changed on disk"
  changedLifecycle := "expired receipt-backed Task candidate changed lifecycle under writer lock"
  notExpired := "selected receipt-backed Task terminal is not expired"
  expiry
    | .taskTerminalReceiptBacked receipt => some (.ok (receipt.terminalEpochMs + receipt.task.ttlMs))
    | _ => none
  materializes := false
  build := buildExpiredTaskReceiptDeletionRecord

def reclaimExpiredTombstoneUnderWriterLock := tombstoneReclaimer.reclaim

def reclaimExpiredDirectTerminalUnderWriterLock := directTerminalReclaimer.reclaim

def reclaimExpiredTaskReceiptTerminalUnderWriterLock := taskReceiptTerminalReclaimer.reclaim

/-- The receipt an identity index names, if its retention is over. -/
def reclaimCandidate (named : Option ReceiptKeyDigest) (observedAtEpochMs : EpochMs)
    (mismatch : ReceiptLedgerError) : Ledger (List ReceiptKeyDigest) :=
  match named with
  | none => pure []
  | some digest => do
      let w ← get
      let expired ← orLatch
        (catalogEntryIsExpiredIdentityReclaimable w.catalog digest observedAtEpochMs)
      if expired then pure [digest] else rejectBeforeMutation mismatch

/-- The reclaimer of a lifecycle that can expire. -/
def expiryReclaimerOf : StoredActiveLifecycle → Option ExpiryReclaimer
  | .acknowledgedTombstone .. => some tombstoneReclaimer
  | .directTerminalUnacked .. => some directTerminalReclaimer
  | .taskTerminalReceiptBacked .. => some taskReceiptTerminalReclaimer
  | _ => none

/-- A new admission reclaims no receipt-backed Task. -/
def identityReclaimerOf : StoredActiveLifecycle → Option ExpiryReclaimer
  | .acknowledgedTombstone .. => some tombstoneReclaimer
  | .directTerminalUnacked .. => some directTerminalReclaimer
  | _ => none

/-- Reclaim the listed receipts one by one, each by the reclaimer of its lifecycle. -/
def reclaimListed (reclaimerOf : StoredActiveLifecycle → Option ExpiryReclaimer)
    (disappeared changed : String) (observedAtEpochMs : EpochMs) : List ReceiptKeyDigest → Ledger Unit
  | [] => pure ()
  | digest :: rest => do
      let w ← get
      let entry ← orLatch (okOr (.corrupt disappeared) (w.catalog.records.lookup digest))
      let reclaimer ← orLatch (okOr (.corrupt changed) (reclaimerOf entry.record.lifecycle))
      reclaimer.reclaim digest observedAtEpochMs
      reclaimListed reclaimerOf disappeared changed observedAtEpochMs rest

def reclaimIdentities := reclaimListed identityReclaimerOf
  "identity reclamation candidate disappeared" "identity reclamation candidate changed lifecycle"

def reclaimEach := reclaimListed expiryReclaimerOf
  "expired retention candidate disappeared" "expired retention candidate changed lifecycle"

/-- Free the identities of a key that expired receipts still hold. -/
def prepareNewAdmissionUnderWriterLock (key : ReceiptKey) (observedAtEpochMs : EpochMs) :
    Ledger Unit := do
  let w ← get
  let byInvocation ← reclaimCandidate (w.catalog.invocationIndex.lookup key.invocationId)
    observedAtEpochMs .invocationIdentityMismatch
  let byTask ← reclaimCandidate (w.catalog.reservedTaskIndex.lookup key.reservedTaskId)
    observedAtEpochMs .reservedTaskIdentityMismatch
  reclaimIdentities observedAtEpochMs ((byInvocation ++ byTask).insertionSort (· ≤ ·)).dedup

/-- Every envelope a receipt is backed by, in name order. -/
def backingNames (c : ReceiptCatalog) : List BatchName :=
  (c.batchBacking.sortedKeys.filterMap c.batchBacking.lookup).dedup.insertionSort (· ≤ ·)

def backedDigests (c : ReceiptCatalog) (name : BatchName) : List ReceiptKeyDigest :=
  c.batchBacking.sortedKeys.filter fun digest => c.batchBacking.lookup digest = some name

/-- The envelopes that hold nothing but expired tombstones, with the receipts they back. -/
def bulkGroups (c : ReceiptCatalog) (observedAtEpochMs : EpochMs) :
    List (BatchName × List ReceiptKeyDigest) :=
  ((backingNames c).map fun name => (name, backedDigests c name)).filter fun group =>
    group.2.all fun digest =>
      (c.records.lookup digest).any fun entry => entryIsExpiredTombstone entry observedAtEpochMs

def lookupExpired (c : ReceiptCatalog) : List ReceiptKeyDigest → Except ReceiptLedgerError (List CatalogEntry)
  | [] => pure []
  | digest :: rest => do
      let entry ← okOr (.corrupt "expired receipt batch entry disappeared") (c.records.lookup digest)
      let entries ← lookupExpired c rest
      pure (entry :: entries)

def validateRemovals (c : ReceiptCatalog) : List CatalogEntry → Except ReceiptLedgerError Unit
  | [] => pure ()
  | entry :: rest => do
      validateCatalogRemove c entry
      validateRemovals c rest

def commitBulkRemoval (name : BatchName) (entries : List CatalogEntry) (c : ReceiptCatalog) :
    ReceiptCatalog :=
  let c := entries.foldl (fun c entry =>
    let c := commitCatalogRemove c entry
    { c with batchBacking := c.batchBacking.erase entry.record.keyDigest }) c
  { c with
    tombstoneCompactionBacking :=
      if c.tombstoneCompactionBacking = some name then none else c.tombstoneCompactionBacking }

/-- Retire one envelope of expired tombstones. No failure on the way latches the store. -/
def reclaimBulkGroup (name : BatchName) (digests : List ReceiptKeyDigest) : Ledger Unit := do
  checkDeadline
  let w ← get
  let expected ← compute (lookupExpired w.catalog digests)
  compute (validateRemovals w.catalog expected)
  let generation ← generationUnderWriterLock
  let finalGeneration ← compute (okOr (.corrupt "receipt generation exhausted u64")
    (checkedAdd wordBound generation expected.length))
  publishGeneration finalGeneration digests.head?
  retireReceiptBatchBackings [name]
  modify (World.mapCatalog (commitBulkRemoval name expected))

def reclaimBulkGroups : List (BatchName × List ReceiptKeyDigest) → Ledger Unit
  | [] => pure ()
  | (name, digests) :: rest => do
      reclaimBulkGroup name digests
      reclaimBulkGroups rest

def expiredDigests (c : ReceiptCatalog) (observedAtEpochMs : EpochMs) : List ReceiptKeyDigest :=
  c.records.sortedKeys.filter fun digest => (c.records.lookup digest).any fun entry =>
    entryIsExpiredTombstone entry observedAtEpochMs
      || entryIsExpiredDirectTerminal entry observedAtEpochMs
      || entryIsExpiredTaskReceiptTerminal entry observedAtEpochMs

def reclaimExpiredTombstonesUnderWriterLock (observedAtEpochMs : EpochMs) : Ledger Nat := do
  let w ← get
  let expired := expiredDigests w.catalog observedAtEpochMs
  let groups := bulkGroups w.catalog observedAtEpochMs
  reclaimBulkGroups groups
  let reclaimed := groups.flatMap Prod.snd
  reclaimEach observedAtEpochMs (expired.filter fun digest => digest ∉ reclaimed)
  pure expired.length

def reclaimExpiredTombstones (observedAtEpochMs : EpochMs) : Ledger Nat := do
  checkDeadline
  enter
  reclaimExpiredTombstonesUnderWriterLock observedAtEpochMs

end Unica.Receipt
