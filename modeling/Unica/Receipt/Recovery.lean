import Unica.Receipt.Store

/-!
# Opening a ledger directory

Recovery decodes every envelope, then every row file, into a catalog, refuses a
directory whose copies of a receipt it cannot order, heals the generation and
finishes the one mutation a crash can have left behind a witness.
-/

namespace Unica.Receipt

open Lib Lib.Prog

variable [ReceiptCodec]

/-- What recovery has gathered so far. `acknowledgement` is the compact row a pending
acknowledgement stands for, with the sequence of its witness. -/
structure RecoveredCatalog where
  catalog : ReceiptCatalog
  maximumMutationSequence : Nat
  mutationSequences : List Nat
  recoveredInvocations : List InvocationId
  recoveredTasks : List TaskId
  expiredDeletions : List ReceiptKeyDigest
  expiredDeletionMutationSequence : Option Nat
  acknowledgement : Option (EncodedRecord × Nat)

namespace RecoveredCatalog

def initial : RecoveredCatalog :=
  { catalog := .empty, maximumMutationSequence := 0, mutationSequences := []
    recoveredInvocations := [], recoveredTasks := [], expiredDeletions := []
    expiredDeletionMutationSequence := none, acknowledgement := none }

/-- The sequence is on disk. -/
def note (st : RecoveredCatalog) (sequence : Nat) : RecoveredCatalog :=
  { st with
    mutationSequences := sequence :: st.mutationSequences
    maximumMutationSequence := max st.maximumMutationSequence sequence }

/-- Only a sequence not seen before may be noted. -/
def noteNew (st : RecoveredCatalog) (sequence : Nat) : Except ReceiptLedgerError RecoveredCatalog := do
  refuseIf (sequence ∈ st.mutationSequences)
    (.corrupt "receipt recovery contains a duplicate mutation sequence")
  pure (st.note sequence)

/-- A compact tombstone carries no sequence to note. -/
def noteRow (st : RecoveredCatalog) (entry : CatalogEntry) :
    Except ReceiptLedgerError RecoveredCatalog :=
  if entry.isTombstone then pure st else st.noteNew entry.record.mutationSequence

def back (st : RecoveredCatalog) (digest : ReceiptKeyDigest) (name : BatchName) : RecoveredCatalog :=
  { st with catalog := { st.catalog with batchBacking := st.catalog.batchBacking.insert digest name } }

def unback (st : RecoveredCatalog) (digest : ReceiptKeyDigest) : RecoveredCatalog :=
  { st with catalog := { st.catalog with batchBacking := st.catalog.batchBacking.erase digest } }

def insert (st : RecoveredCatalog) (entry : CatalogEntry) :
    Except ReceiptLedgerError RecoveredCatalog := do
  let catalog ← insertCatalogEntry st.catalog entry true
  pure { st with catalog }

def replace (st : RecoveredCatalog) (previous entry : CatalogEntry) :
    Except ReceiptLedgerError RecoveredCatalog := do
  validateCatalogReplace st.catalog previous entry
  pure { st with catalog := commitCatalogReplace st.catalog entry }

end RecoveredCatalog

/-- One row of an envelope: the copy with the greater version and sequence wins. -/
def recoverBatchRow (name : BatchName) (st : RecoveredCatalog) (entry : CatalogEntry) :
    Except ReceiptLedgerError RecoveredCatalog := do
  let digest := entry.record.keyDigest
  let sequenceIsNew := decide (entry.record.mutationSequence ∉ st.mutationSequences)
  let st := st.note entry.record.mutationSequence
  match st.catalog.records.lookup digest with
  | some previous =>
      if previous.same entry then pure (st.back digest name)
      else do
        refuseIf (sequenceIsNew = false)
          (.corrupt "receipt recovery contains a duplicate mutation sequence")
        refuseIf (previous.record.key ≠ entry.record.key
            ∨ previous.record.recordVersion = entry.record.recordVersion
            ∨ previous.record.mutationSequence = entry.record.mutationSequence)
          (.corrupt "receipt batch history has an ambiguous exact successor")
        if previous.record.recordVersion.get < entry.record.recordVersion.get
            ∧ previous.record.mutationSequence < entry.record.mutationSequence then do
          let st ← st.replace previous entry
          pure (st.back digest name)
        else pure st
  | none => do
      refuseIf (sequenceIsNew = false)
        (.corrupt "receipt recovery contains a duplicate mutation sequence")
      let st ← st.insert entry
      pure (st.back digest name)

def recoverBatchRows (name : BatchName) :
    List EncodedRecord → RecoveredCatalog → Except ReceiptLedgerError RecoveredCatalog
  | [], st => pure st
  | row :: rest, st => do
      let st ← recoverBatchRow name st row.entry
      recoverBatchRows name rest st

/-- An envelope of tombstones with room left is the one to compact into. -/
def isPartialTombstoneBatch (rows : List EncodedRecord) : Bool :=
  decide (rows.length < maxReceiptBatchEnvelopeRows)
    && rows.all fun row => row.record.lifecycle.isTombstone

def recoverBatch (name : BatchName) (rows : List EncodedRecord) (st : RecoveredCatalog) :
    Except ReceiptLedgerError RecoveredCatalog := do
  let st ← recoverBatchRows name rows st
  if isPartialTombstoneBatch rows then
    pure { st with catalog := { st.catalog with tombstoneCompactionBacking := some name } }
  else pure st

/-- A compact tombstone keeps no sequence to compare; it supersedes the Direct terminal it
acknowledges. -/
def isCompactTombstoneSuccessor (previous entry : CatalogEntry) : Bool :=
  match previous.record.lifecycle, entry.record.lifecycle with
  | .directTerminalUnacked _ terminalEpoch previousDigest _, .acknowledgedTombstone digest acknowledgedAt =>
      decide (digest = previousDigest ∧ terminalEpoch ≤ acknowledgedAt)
  | _, _ => false

/-- A row file of a receipt that an envelope also holds. -/
def recoverSupersedingRow (st : RecoveredCatalog) (digest : ReceiptKeyDigest)
    (previous entry : CatalogEntry) : Except ReceiptLedgerError RecoveredCatalog :=
  let backed := (st.catalog.batchBacking.lookup digest).isSome
  if backed ∧ previous.same entry then pure (st.unback digest)
  else do
    let compact := isCompactTombstoneSuccessor previous entry
    refuseIf (backed = false ∨ previous.record.key ≠ entry.record.key
        ∨ (compact = false ∧ entry.record.mutationSequence ≤ previous.record.mutationSequence)
        ∨ (compact = false ∧ entry.record.recordVersion.get ≤ previous.record.recordVersion.get))
      (.corrupt "standalone receipt row does not exactly supersede its batch-backed row")
    let st ← st.noteRow entry
    let st ← st.replace previous entry
    pure (st.unback digest)

/-- A row file of a receipt no envelope holds: a live row or a witness. -/
def recoverStandaloneRow (st : RecoveredCatalog) (digest : ReceiptKeyDigest) (entry : CatalogEntry) :
    Except ReceiptLedgerError RecoveredCatalog := do
  refuseIf (entry.record.key.invocationId ∈ st.recoveredInvocations)
    (.corrupt "receipt catalog contains a duplicate invocation id")
  refuseIf (entry.record.key.reservedTaskId ∈ st.recoveredTasks)
    (.corrupt "receipt catalog contains a duplicate reserved task id")
  let st := { st with
    recoveredInvocations := entry.record.key.invocationId :: st.recoveredInvocations
    recoveredTasks := entry.record.key.reservedTaskId :: st.recoveredTasks }
  let st ← st.noteRow entry
  if entry.isExpiredDeletion then do
    refuseIf st.expiredDeletionMutationSequence.isSome
      (.corrupt "receipt recovery contains more than one expiry deletion witness")
    pure { st with
      expiredDeletionMutationSequence := some entry.record.mutationSequence
      expiredDeletions := st.expiredDeletions ++ [digest] }
  else if entry.isAcknowledgementCommit then do
    refuseIf st.acknowledgement.isSome
      (.corrupt "receipt recovery contains more than one acknowledgement witness")
    let record ← buildAcknowledgedTombstoneRecordFromWitness entry
    let compact ← serializeReservedRecord record maxAcknowledgedTombstoneBytes
    let st ← st.insert compact.entry
    pure { st with acknowledgement := some (compact, entry.record.mutationSequence) }
  else st.insert entry

def recoverRow (st : RecoveredCatalog) (digest : ReceiptKeyDigest) (entry : CatalogEntry) :
    Except ReceiptLedgerError RecoveredCatalog :=
  match st.catalog.records.lookup digest with
  | some previous => recoverSupersedingRow st digest previous entry
  | none => recoverStandaloneRow st digest entry

/-- The envelope file of the name, decoded into what was gathered before. -/
def recoverEnvelope (d : Disk) (st : RecoveredCatalog) (name : BatchName) :
    Except ReceiptLedgerError RecoveredCatalog := do
  let envelope ← okOr (.storage "open receipt batch during recovery") (d.batches.lookup name)
  let rows ← decodeReceiptBatch envelope
  recoverBatch name rows st

def recoverRowFile (d : Disk) (st : RecoveredCatalog) (digest : ReceiptKeyDigest) :
    Except ReceiptLedgerError RecoveredCatalog := do
  let row ← okOr (.storage "open receipt row during recovery") (d.rows.lookup digest)
  let entry ← readActiveRecord row digest
  recoverRow st digest entry

/-- Everything recovery reads off a directory: envelopes first, each group in name order. -/
def recoverDisk (d : Disk) : Except ReceiptLedgerError RecoveredCatalog := do
  let st ← d.batches.sortedKeys.foldlM (recoverEnvelope d) .initial
  d.rows.sortedKeys.foldlM (recoverRowFile d) st

def verifyRecoveryAuthority : Ledger Unit := do
  io "validate named receipts directory"
  io "verify receipts directory ownership"
  io "validate named receipt active directory"
  io "verify receipt active directory ownership"

def recoverEnvelopes : List BatchName → RecoveredCatalog → Ledger RecoveredCatalog
  | [], st => pure st
  | name :: rest, st => do
      checkDeadline
      io "open receipt batch during recovery"
      io "verify recovered receipt batch ownership"
      io "identify recovered receipt batch"
      io "read recovered receipt batch"
      let w ← get
      let st ← compute (recoverEnvelope w.disk st name)
      recoverEnvelopes rest st

def identifyStaging (open' verify identify : String) : Nat → Ledger Unit
  | 0 => pure ()
  | n + 1 => do
      checkDeadline
      io open'
      io verify
      io identify
      identifyStaging open' verify identify n

def recoverRowFiles : List ReceiptKeyDigest → RecoveredCatalog → Ledger RecoveredCatalog
  | [], st => pure st
  | digest :: rest, st => do
      checkDeadline
      io "open receipt row during recovery"
      io "verify recovered receipt row ownership"
      io "identify recovered receipt row"
      io "rewind active receipt row"
      io "read active receipt row"
      let w ← get
      let st ← compute (recoverRowFile w.disk st digest)
      checkDeadline
      recoverRowFiles rest st

def recoverExistingCatalog : Ledger RecoveredCatalog := do
  checkDeadline
  verifyRecoveryAuthority
  io "enumerate receipt active directory"
  let w ← get
  let st ← recoverEnvelopes w.disk.batches.sortedKeys .initial
  identifyStaging "open abandoned receipt staging file" "verify abandoned receipt staging ownership"
    "identify abandoned receipt staging file" w.activeStaging
  let st ← recoverRowFiles w.disk.rows.sortedKeys st
  checkDeadline
  verifyRecoveryAuthority
  checkDeadline
  pure st

def inspectGenerationStagingBeforeInitialization : Ledger Unit := do
  checkDeadline
  io "validate named receipts directory"
  io "verify receipts directory ownership"
  io "enumerate receipt root directory"
  let w ← get
  identifyStaging "open abandoned generation staging" "verify abandoned generation staging ownership"
    "identify abandoned generation staging" w.generationStaging
  io "validate named receipts directory"
  io "verify receipts directory ownership"
  checkDeadline

/-- A missing generation record is created with the greatest sequence found. -/
def initializeGeneration (initialGeneration : Nat) : Ledger Unit := do
  checkDeadline
  let stuck := ReceiptLedgerError.storage "clean up receipt staging file"
  stageFile .generation "create initial generation staging"
    (.storage "identify initial generation staging") "persist initial generation staging"
    (orCleanup .generation stuck)
  orCleanup .generation stuck (io "atomically publish initial generation")
  modify fun w =>
    (w.mapDisk (Disk.setGeneration initialGeneration)).restage .generation (· - 1)
  io "sync initial generation"
  checkDeadline

def openOrInitializeGeneration (initialGeneration : Nat) : Ledger Nat := do
  checkDeadline
  io "open generation record no-follow"
  let w ← get
  if w.disk.generation.isNone then initializeGeneration initialGeneration else pure ()
  io "verify generation record ownership"
  io "rewind generation record during recovery"
  io "read generation record during recovery"
  let w ← get
  let persisted ← compute (okOr (.storage "read generation record during recovery") w.disk.generation)
  checkDeadline
  pure persisted

/-- Remove one abandoned entry; `remove` is its effect on the directory. -/
def removeVerifiedRecoveryStaging (remove : World → World) : Ledger Unit := do
  verifyNamedAuthority
  io "reopen validated receipt recovery entry"
  io "verify receipt recovery entry ownership"
  io "identify receipt recovery entry"
  verifyNamedAuthority
  io "remove validated receipt recovery entry"
  modify remove

/-- A cleanup that stops half way still syncs the directory. -/
def orSync (sync : String) (step : Ledger Unit) : Ledger Unit := do
  match ← step.reify with
  | .ok () => pure ()
  | .error e => do
      io sync
      throw e

def removeStagingLoop (partialSync failedSync : String) : List (World → World) → Bool → Ledger Unit
  | [], _ => pure ()
  | remove :: rest, started => do
      if started then orSync partialSync checkDeadline else checkDeadline
      orSync failedSync (removeVerifiedRecoveryStaging remove)
      orSync partialSync checkDeadline
      removeStagingLoop partialSync failedSync rest true

def removeStaging (sync partialSync failedSync : String) (removals : List (World → World)) :
    Ledger Unit := do
  checkDeadline
  removeStagingLoop partialSync failedSync removals false
  if removals.isEmpty then pure ()
  else do
    io sync
    checkDeadline
  verifyNamedAuthority
  checkDeadline

def removeActiveStaging (removals : List (World → World)) : Ledger Unit :=
  removeStaging "sync abandoned receipt cleanup" "sync partial abandoned receipt cleanup"
    "sync failed abandoned receipt cleanup" removals

def removeGenerationStaging (removals : List (World → World)) : Ledger Unit :=
  removeStaging "sync generation staging cleanup" "sync partial generation staging cleanup"
    "sync failed generation staging cleanup" removals

namespace RecoveredCatalog

def pendingWitnessSequence (st : RecoveredCatalog) : Option Nat :=
  st.expiredDeletionMutationSequence.or (st.acknowledgement.map Prod.snd)

/-- At most one witness is pending, and it is the current or the next mutation. -/
def checkPendingWitness (st : RecoveredCatalog) (persistedGeneration : Nat) :
    Except ReceiptLedgerError Unit := do
  refuseIf (st.expiredDeletionMutationSequence.isSome ∧ st.acknowledgement.isSome)
    (.corrupt "receipt recovery contains more than one pending mutation witness")
  match st.pendingWitnessSequence with
  | none => pure ()
  | some sequence =>
      refuseIf (¬ (sequence = persistedGeneration
            ∨ checkedAdd wordBound persistedGeneration 1 = some sequence)
          ∨ sequence ≠ st.maximumMutationSequence)
        (.corrupt "pending receipt mutation witness is not the next persisted mutation")

end RecoveredCatalog

/-- The compact row of a pending acknowledgement replaces its witness. -/
def finishAcknowledgement : Option (EncodedRecord × Nat) → Ledger Unit
  | none => pure ()
  | some (compact, _) => do
      let digest := compact.record.keyDigest
      publishReplacementRecord digest compact.row id
      match ← (readActiveRecordBytes digest).reify with
      | .ok (some committed) =>
          if committed = compact.row then pure () else throw (.commitUncertain digest)
      | _ => throw (.commitUncertain digest)

/-- The store before its catalog is installed. -/
def Store.fresh (persistedGeneration : Nat) : Store :=
  { catalog := .empty, highwater := persistedGeneration, generationHandleCurrent := true
    poisoned := false }

def openRetainedDirectory : Ledger Unit := do
  checkDeadline
  io "validate named receipts directory"
  io "verify receipts directory ownership"
  io "open receipt ledger ownership object"
  io "verify receipt ledger ownership object"
  io "acquire receipt ledger ownership lock"
  inspectGenerationStagingBeforeInitialization
  io "open existing receipt active directory no-follow"
  let recovered ← recoverExistingCatalog
  checkDeadline
  let persisted ← openOrInitializeGeneration recovered.maximumMutationSequence
  io "retain named generation record"
  io "identify generation record"
  compute (recovered.checkPendingWitness persisted)
  io "identify receipt active directory"
  modify fun w => { w with store := .fresh persisted }
  verifyNamedAuthority
  checkDeadline
  let confirmed ← generationUnderWriterLock
  compute (refuseIf (confirmed ≠ persisted) (.corrupt "receipt generation changed during recovery"))
  checkDeadline
  let w ← get
  removeActiveStaging (List.replicate w.activeStaging (World.restage .active (· - 1)))
  removeGenerationStaging (List.replicate w.generationStaging (World.restage .generation (· - 1)))
  if persisted < recovered.maximumMutationSequence then do
    checkDeadline
    publishGeneration recovered.maximumMutationSequence none
  else pure ()
  finishAcknowledgement recovered.acknowledgement
  -- the generation is authoritative before the deletion witness goes
  removeActiveStaging
    (recovered.expiredDeletions.map fun digest => World.mapDisk (Disk.removeRow digest))
  checkDeadline
  modify (World.mapCatalog fun _ => recovered.catalog)
  checkDeadline

end Unica.Receipt
