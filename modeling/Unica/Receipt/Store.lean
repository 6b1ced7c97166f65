import Unica.Receipt.Validation
import Unica.Lib.Fault

/-!
# The receipt store: directory, reads and durable steps

The state an operation works on is the ledger directory and the store opened over
it. Each file system call and each deadline check is one fallible step, so a run
can fail or die between any two of them. A row, an envelope or the generation
record becomes visible in one step, its rename.
-/

namespace Unica.Receipt

open Lib Lib.Prog

/-- The durable content of the ledger directory. `journal` is a history variable: every record
whose row became visible, newest first. Nothing reads it. -/
structure Disk where
  rows : Table ReceiptKeyDigest PersistedRow
  batches : Table BatchName (List StoredReceiptBatchRow)
  generation : Option Nat
  journal : List StoredActiveReceipt
  deriving DecidableEq

/-- The open store. The retained handle of the generation record goes stale when the record is
replaced and stays so until the new one is retained. `poisoned` tells that a panic unwound while
the catalog was locked. -/
structure Store where
  catalog : ReceiptCatalog
  highwater : Nat
  generationHandleCurrent : Bool
  poisoned : Bool
  deriving DecidableEq

/-- Staging files are abandoned temporaries and only counted. -/
structure Files where
  disk : Disk
  activeStaging : Nat
  generationStaging : Nat
  deriving DecidableEq

structure World extends Files where
  store : Store
  deriving DecidableEq

open World

inductive StagingArea where
  | active | generation
  deriving DecidableEq

namespace World

def catalog (w : World) : ReceiptCatalog := w.store.catalog

def unavailable (w : World) : Bool := w.store.catalog.unavailable

def mapCatalog (f : ReceiptCatalog → ReceiptCatalog) (w : World) : World :=
  { w with store := { w.store with catalog := f w.store.catalog } }

/-- `catalog.unavailable = true`: every later operation is refused until the store is reopened. -/
def latch (w : World) : World := w.mapCatalog fun c => { c with unavailable := true }

def poison (w : World) : World := { w with store := { w.store with poisoned := true } }

def restage (area : StagingArea) (f : Nat → Nat) (w : World) : World :=
  match area with
  | .active => { w with activeStaging := f w.activeStaging }
  | .generation => { w with generationStaging := f w.generationStaging }

end World

section Store

variable [ReceiptCodec]

namespace Disk

/-- The row file of the digest now holds the row. -/
def putRow (digest : ReceiptKeyDigest) (row : PersistedRow) (d : Disk) : Disk :=
  { d with rows := d.rows.insert digest row, journal := row.record 0 :: d.journal }

def removeRow (digest : ReceiptKeyDigest) (d : Disk) : Disk := { d with rows := d.rows.erase digest }

def putBatch (name : BatchName) (rows : List EncodedRecord) (d : Disk) : Disk :=
  { d with
    batches := d.batches.insert name (rows.map EncodedRecord.stored)
    journal := (rows.map EncodedRecord.record).reverse ++ d.journal }

def removeBatch (name : BatchName) (d : Disk) : Disk := { d with batches := d.batches.erase name }

def setGeneration (generation : Nat) (d : Disk) : Disk := { d with generation := some generation }

end Disk

abbrev Ledger := Prog World ReceiptLedgerError

namespace World

def mapDisk (f : Disk → Disk) (w : World) : World := { w with disk := f w.disk }

def showRow (digest : ReceiptKeyDigest) (row : PersistedRow) (w : World) : World :=
  (w.mapDisk (Disk.putRow digest row)).restage .active (· - 1)

/-- The record is replaced; the retained handle still names the old one. -/
def showGeneration (generation : Nat) (w : World) : World :=
  let w := (w.mapDisk (Disk.setGeneration generation)).restage .generation (· - 1)
  { w with store := { w.store with generationHandleCurrent := false } }

def retainGeneration (w : World) : World :=
  { w with store := { w.store with generationHandleCurrent := true } }

def raiseHighwater (generation : Nat) (w : World) : World :=
  { w with store := { w.store with highwater := max w.store.highwater generation } }

end World

/-- A file system call without an effect the ledger depends on. -/
def io (operation : String) : Ledger Unit := attempt (.storage operation)

def checkDeadline : Ledger Unit := attempt .deadlineExceeded

/-- A computation on values. The source panics where it gives `panicked`. -/
def compute {α : Type} (result : Except ReceiptLedgerError α) : Ledger α :=
  match result with
  | .ok a => pure a
  | .error (.panicked message) => do
      modify poison
      throw (.panicked message)
  | .error e => throw e

def latchCatalogResult {α : Type} (m : Ledger α) : Ledger α := m.onError fun _ => latch

def latchCatalogError {α : Type} (e : ReceiptLedgerError) : Ledger α := do
  modify latch
  throw e

/-- A failed publication latches the store unless the deadline stopped it before the rename. -/
def latchUnlessDeadline {α : Type} (m : Ledger α) : Ledger α :=
  m.onError fun e w => if e = .deadlineExceeded then w else w.latch

def lockCatalog : Ledger Unit := do
  let w ← get
  if w.store.poisoned then throw (.corrupt "receipt catalog lock was poisoned") else pure ()

def refuseUnavailable : Ledger Unit := do
  let w ← get
  if w.unavailable then throw .storeUnavailable else pure ()

def verifyNamedAuthority : Ledger Unit := do
  io "validate named receipts directory"
  io "validate named receipt active directory"
  io "verify receipts directory ownership"
  io "verify receipt active directory ownership"
  let w ← get
  if w.store.generationHandleCurrent then io "validate named generation record"
  else throw (.storage "validate named generation record")
  io "verify generation record ownership"

def generationUnderWriterLock : Ledger Nat := do
  verifyNamedAuthority
  io "verify generation record ownership"
  io "rewind generation record"
  io "read generation record"
  let w ← get
  let value ← compute (okOr (.storage "read generation record") w.disk.generation)
  verifyNamedAuthority
  pure (max value w.store.highwater)

/-- Reads a generation twice around `read` and refuses what changed in between. -/
def underStableGeneration {α : Type} (read : Ledger α) : Ledger α := do
  refuseUnavailable
  checkDeadline
  latchCatalogResult verifyNamedAuthority
  checkDeadline
  let before ← latchCatalogResult generationUnderWriterLock
  checkDeadline
  let value ← read
  checkDeadline
  let after ← latchCatalogResult generationUnderWriterLock
  if after = before then pure () else latchCatalogError (.concurrentGenerationChange before after)
  checkDeadline
  latchCatalogResult verifyNamedAuthority
  checkDeadline
  pure value

def inspectCatalogUnderStableFence {α : Type} (inspect : ReceiptCatalog → α) : Ledger α :=
  underStableGeneration do
    let w ← get
    pure (inspect w.catalog)

def readActiveRecordBytes (digest : ReceiptKeyDigest) : Ledger (Option PersistedRow) := do
  io "open active receipt row"
  let w ← get
  match w.disk.rows.lookup digest with
  | none => pure none
  | some row => do
      io "verify active receipt row ownership"
      io "rewind active receipt row"
      io "read active receipt row"
      compute (refuseIf (maxReceiptEntitlementBytes < rowLength row)
        (.corrupt "persisted receipt row exceeds its byte limit"))
      pure (some row)

def readActiveRecordFrom (digest : ReceiptKeyDigest) : Ledger (Option CatalogEntry) := do
  match ← readActiveRecordBytes digest with
  | none => pure none
  | some row => do
      let entry ← compute (readActiveRecord row digest)
      pure (some entry)

def openRetainedReceiptBatch (name : BatchName) : Ledger (List StoredReceiptBatchRow) := do
  io "open retained receipt batch"
  let w ← get
  let envelope ← compute (okOr (.storage "open retained receipt batch") (w.disk.batches.lookup name))
  io "verify retained receipt batch ownership"
  io "identify retained receipt batch"
  pure envelope

def verifyReceiptBatchBacking (name : BatchName) : Ledger Unit := do
  let _ ← openRetainedReceiptBatch name
  io "read retained receipt batch"

def readVerifiedReceiptBatch (name : BatchName) : Ledger (List EncodedRecord) := do
  let envelope ← openRetainedReceiptBatch name
  io "read retained receipt batch"
  compute (decodeReceiptBatch envelope)

/-- The row of a digest inside a decoded envelope. -/
def batchRowOf (digest : ReceiptKeyDigest) (rows : List EncodedRecord) : Option EncodedRecord :=
  rows.find? fun row => row.record.keyDigest = digest

/-- The entry as its file has it. The envelope is read only for a body the catalog left there. -/
def readBackedEntry (digest : ReceiptKeyDigest) : Ledger (Option CatalogEntry) := do
  let w ← get
  match w.catalog.batchBacking.lookup digest with
  | none => readActiveRecordFrom digest
  | some name =>
      let catalogued := w.catalog.records.lookup digest
      if catalogued.any fun entry => entry.record.lifecycle.resultBodyIsOnDisk then do
        let rows ← readVerifiedReceiptBatch name
        pure ((batchRowOf digest rows).map EncodedRecord.entry)
      else do
        verifyReceiptBatchBacking name
        pure catalogued

/-- What the catalog and the disk say about a digest must agree. -/
def agreeOnEntry (catalogued actual : Option CatalogEntry) :
    Except ReceiptLedgerError (Option CatalogEntry) :=
  match catalogued, actual with
  | none, none => .ok none
  | none, some _ => .error (.corrupt "receipt row is present outside the recovered catalog")
  | some _, none => .error (.corrupt "catalogued receipt row is missing")
  | some expected, some actual =>
      if expected.same actual then .ok (some actual)
      else .error (.corrupt "catalogued receipt row changed on disk")

def readEntryUnderWriterLock (digest : ReceiptKeyDigest) : Ledger (Option CatalogEntry) := do
  let entry ← underStableGeneration (latchCatalogResult (readBackedEntry digest))
  let w ← get
  latchCatalogResult (compute (agreeOnEntry (w.catalog.records.lookup digest) entry))

/-- The refusal of an operation that has changed nothing. -/
def rejectBeforeMutation {α : Type} (e : ReceiptLedgerError) : Ledger α := do
  checkDeadline
  latchCatalogResult verifyNamedAuthority
  throw e

/-- A result whose error is a refusal before any mutation. -/
def orReject {α : Type} (result : Except ReceiptLedgerError α) : Ledger α :=
  match result with
  | .ok a => pure a
  | .error e => rejectBeforeMutation e

/-- Run a step of a publication; where it fails, remove the staging file first. `stuck` is the
error for a staging file that cannot be removed. -/
def orCleanup (area : StagingArea) (stuck : ReceiptLedgerError) (step : Ledger Unit) :
    Ledger Unit := do
  match ← step.reify with
  | .ok () => pure ()
  | .error e => do
      match ← (io "clean up receipt staging file").reify with
      | .ok () => do
          modify (restage area (· - 1))
          throw e
      | .error _ => throw stuck

/-- As `orCleanup`, but the outcome of the removal is ignored. -/
def orDiscard (step : Ledger Unit) : Ledger Unit := do
  match ← step.reify with
  | .ok () => pure ()
  | .error e => do
      match ← (io "clean up receipt staging file").reify with
      | .ok () => modify (restage .active (· - 1))
      | .error _ => pure ()
      throw e

/-- Create, identify, write and sync a staging file. -/
def stageFile (area : StagingArea) (create : String) (unidentified : ReceiptLedgerError)
    (persist : String) (guarded : Ledger Unit → Ledger Unit) : Ledger Unit := do
  io create
  modify (restage area (· + 1))
  attempt unidentified
  guarded (io persist)
  guarded checkDeadline

def uncertain {α : Type} (digest : ReceiptKeyDigest) (m : Ledger α) : Ledger α :=
  m.mapError fun _ => .commitUncertain digest

/-- Stage a row and rename it to its final name. `onVisible` is the change the caller makes to
its catalog at that moment. -/
def publishRow (persist : String) (rename : Ledger Unit) (digest : ReceiptKeyDigest)
    (row : PersistedRow) (onVisible : World → World) : Ledger Unit := do
  checkDeadline
  verifyNamedAuthority
  stageFile .active "create owner-only receipt staging file" .storeUnavailable persist
    (orCleanup .active .storeUnavailable)
  orCleanup .active .storeUnavailable rename
  modify fun w => onVisible (w.showRow digest row)
  uncertain digest do
    io "sync receipt row directory"
    checkDeadline

/-- The rename refuses a target that exists. -/
def publishNewRecord (digest : ReceiptKeyDigest) (row : PersistedRow) (onVisible : World → World) :
    Ledger Unit :=
  publishRow "persist receipt staging file" (do
      let w ← get
      if (w.disk.rows.lookup digest).isSome then throw (.storage "atomically publish receipt row")
      else io "atomically publish receipt row")
    digest row onVisible

def publishReplacementRecord (digest : ReceiptKeyDigest) (row : PersistedRow)
    (onVisible : World → World) : Ledger Unit :=
  publishRow "persist receipt replacement staging file" (io "atomically replace receipt row")
    digest row onVisible

/-- After its row is visible an operation only reports that the commit is uncertain. -/
def afterRowError (digest : Option ReceiptKeyDigest) (fallback : ReceiptLedgerError) :
    ReceiptLedgerError :=
  digest.elim fallback .commitUncertain

def publishGeneration (nextGeneration : Nat) (digest : Option ReceiptKeyDigest) : Ledger Unit :=
  Prog.mapError (afterRowError digest) do
    checkDeadline
    verifyNamedAuthority
    stageFile .generation "create receipt generation staging file" .storeUnavailable
      "persist receipt generation staging file" (orCleanup .generation .storeUnavailable)
    orCleanup .generation .storeUnavailable (io "replace receipt generation record")
    modify (showGeneration nextGeneration)
    io "publish receipt generation"
    io "retain replaced generation record"
    io "identify replaced generation record"
    modify retainGeneration
    verifyNamedAuthority
    checkDeadline
    modify (raiseHighwater nextGeneration)

/-- The committed row must read back as it was written. -/
def confirmCommittedRow (digest : ReceiptKeyDigest) (row : PersistedRow) : Ledger Unit := do
  match ← (readActiveRecordBytes digest).reify with
  | .ok (some committed) =>
      if committed = row then pure () else latchCatalogError (.commitUncertain digest)
  | _ => latchCatalogError (.commitUncertain digest)

def confirmAuthority (digest : ReceiptKeyDigest) : Ledger Unit :=
  latchCatalogResult (uncertain digest do
    checkDeadline
    verifyNamedAuthority)

/-- The tail every single-row commit shares once its row is visible. -/
def settleRow (r : EncodedRecord) : Ledger Unit := do
  latchCatalogResult (publishGeneration r.record.mutationSequence (some r.record.keyDigest))
  confirmCommittedRow r.record.keyDigest r.row

/-- Commit a first row: the receipt is new to the directory. -/
def commitNewRow (r : EncodedRecord) : Ledger Unit := do
  latchUnlessDeadline (publishNewRecord r.record.keyDigest r.row
    (mapCatalog fun c => commitCatalogInsert c r.entry))
  settleRow r

/-- Commit a successor row of the receipt. -/
def commitReplacementRow (r : EncodedRecord) : Ledger Unit := do
  latchUnlessDeadline (publishReplacementRecord r.record.keyDigest r.row
    (mapCatalog fun c => commitCatalogReplace c r.entry))
  settleRow r

/-- Unlink a deletion witness. Whatever fails, the deletion is already committed. -/
def removeExpiredDeletionWitness (digest : ReceiptKeyDigest) (expected : PersistedRow) :
    Ledger Unit :=
  uncertain digest do
    checkDeadline
    verifyNamedAuthority
    let committed ← readActiveRecordBytes digest
    if committed = some expected then pure () else throw .storeUnavailable
    checkDeadline
    verifyNamedAuthority
    io "remove receipt row"
    modify (mapDisk (Disk.removeRow digest))
    io "sync receipt row directory"
    checkDeadline
    verifyNamedAuthority

/-- Replace a receipt by its deletion witness, publish the generation and unlink the witness. -/
def commitRemoval (persisted : CatalogEntry) (witness : EncodedRecord) : Ledger Unit := do
  let digest := persisted.record.keyDigest
  latchUnlessDeadline (publishReplacementRecord digest witness.row
    (mapCatalog fun c => commitCatalogRemove c persisted))
  latchCatalogResult (publishGeneration witness.record.mutationSequence (some digest))
  latchCatalogResult (removeExpiredDeletionWitness digest witness.row)
  confirmAuthority digest

/-- Copy the envelope row of a receipt to a row file of its own. -/
def materializeBatchBackedRecord (digest : ReceiptKeyDigest) : Ledger Unit := do
  let w ← get
  match w.catalog.batchBacking.lookup digest with
  | none => pure ()
  | some name => do
      let entry ← compute (okOr (.corrupt "batch backing has no catalogued receipt row")
        (w.catalog.records.lookup digest))
      let rows ← readVerifiedReceiptBatch name
      let row ← compute (okOr
        (.corrupt "batch backing does not contain its catalogued receipt row")
        (batchRowOf digest rows))
      compute (refuseIf (¬ row.entry.same entry)
        (.corrupt "batch-backed receipt row changed record or encoded size"))
      publishNewRecord digest row.row id
      confirmCommittedRow digest row.row
      modify (mapCatalog fun c => { c with batchBacking := c.batchBacking.erase digest })

def retireBatchLoop : List BatchName → Ledger Unit
  | [] => pure ()
  | name :: rest => do
      checkDeadline
      io "open superseded receipt batch"
      let w ← get
      let _ ← compute (okOr (.storage "open superseded receipt batch") (w.disk.batches.lookup name))
      io "verify superseded receipt batch ownership"
      io "identify superseded receipt batch"
      io "read retained receipt batch"
      io "remove superseded receipt batch"
      modify (mapDisk (Disk.removeBatch name))
      retireBatchLoop rest

def retireReceiptBatchBackings (names : List BatchName) : Ledger Unit :=
  if names = [] then pure ()
  else do
    retireBatchLoop names
    io "sync retired receipt batches"
    checkDeadline
    verifyNamedAuthority

/-- The envelopes that back a row of the batch, each once, in the order of the rows. -/
def supersededBackings (c : ReceiptCatalog) (rows : List EncodedRecord) : List BatchName :=
  rows.foldl (fun names row =>
    match c.batchBacking.lookup row.record.keyDigest with
    | some name => if name ∈ names then names else names ++ [name]
    | none => names) []

/-- The envelopes no receipt is backed by any more. -/
def obsoleteBackings (c : ReceiptCatalog) (names : List BatchName) : List BatchName :=
  names.filter fun name => !c.batchBacking.existsValue fun _ backing => backing = name

/-- The catalog after its own commit: every row is backed by the envelope, and an envelope of
tombstones with room left becomes the one to compact into. -/
def backRows (name : BatchName) (rows : List EncodedRecord) (c : ReceiptCatalog) : ReceiptCatalog :=
  { c with
    batchBacking :=
      rows.foldl (fun backing row => backing.insert row.record.keyDigest name) c.batchBacking
    tombstoneCompactionBacking :=
      if rows.all fun row => row.record.lifecycle.isTombstone then
        if rows.length < maxReceiptBatchEnvelopeRows then some name else none
      else c.tombstoneCompactionBacking }

def validateBatchRows : List EncodedRecord → Except ReceiptLedgerError Unit
  | [] => pure ()
  | row :: rest => do
      catalogEntryFromBatchRecord row.record row.row
      validateBatchRows rest

/-- Publish one envelope and let `commit` make the same change to the catalog. -/
def publishRecordBatch (name : BatchName) (rows : List EncodedRecord) (finalGeneration : Nat)
    (commit : ReceiptCatalog → ReceiptCatalog) : Ledger Unit := do
  compute (refuseIf (rows = [] ∨ maxReceiptBatchEnvelopeRows < rows.length)
    .receiptRowPresentUnsupported)
  let w ← get
  let superseded := supersededBackings w.catalog rows
  checkDeadline
  verifyNamedAuthority
  compute (validateBatchRows rows)
  let _ ← compute (encodeReceiptBatchEnvelope rows)
  stageFile .active "create receipt batch staging file" .storeUnavailable
    "persist receipt batch staging file" orDiscard
  orDiscard do
    let w ← get
    if (w.disk.batches.lookup name).isSome then throw (.storage "publish receipt batch")
    else io "publish receipt batch"
  modify fun w => (w.mapDisk (Disk.putBatch name rows)).restage .active (· - 1)
  let firstDigest := (rows.head?.map fun row => row.record.keyDigest).getD 0
  latchCatalogResult (uncertain firstDigest do
    io "sync receipt row directory"
    checkDeadline)
  modify fun w => (w.mapCatalog fun c => backRows name rows (commit c)).raiseHighwater finalGeneration
  latchCatalogResult (uncertain firstDigest do
    verifyReceiptBatchBacking name
    checkDeadline
    verifyNamedAuthority)
  let w ← get
  latchCatalogResult (uncertain firstDigest
    (retireReceiptBatchBackings (obsoleteBackings w.catalog superseded)))

end Store

end Unica.Receipt
