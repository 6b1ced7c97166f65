import Unica.Receipt.Operations.Task

/-!
# Batch operations

A batch writes all its rows in one envelope and moves the catalog in one commit.
The name of the envelope is random and chosen by the caller of the model.
-/

namespace Unica.Receipt

open Lib Lib.Prog

variable [ReceiptCodec]

/-- The opening of a batch operation: its size, then the generation it starts from. -/
def enterBatch (size : Nat) : Ledger Nat := do
  compute (refuseIf (size = 0 ∨ maxReceiptMutationBatchRows < size) .receiptRowPresentUnsupported)
  checkDeadline
  enter
  latchCatalogResult generationUnderWriterLock

/-- The identities earlier rows of a batch have taken. -/
structure SeenIdentities where
  digests : List ReceiptKeyDigest
  invocations : List InvocationId
  tasks : List TaskId

namespace SeenIdentities

def none : SeenIdentities := ⟨[], [], []⟩

def clashes (seen : SeenIdentities) (key : ReceiptKey) : Prop :=
  receiptKeyDigest key ∈ seen.digests ∨ key.invocationId ∈ seen.invocations
    ∨ key.reservedTaskId ∈ seen.tasks

instance (seen : SeenIdentities) (key : ReceiptKey) : Decidable (seen.clashes key) :=
  inferInstanceAs (Decidable (_ ∨ _))

def add (seen : SeenIdentities) (key : ReceiptKey) : SeenIdentities :=
  ⟨receiptKeyDigest key :: seen.digests, key.invocationId :: seen.invocations,
    key.reservedTaskId :: seen.tasks⟩

end SeenIdentities

/-- The rows of a reservation batch and the generation after the last of them. -/
def reserveRows (c : ReceiptCatalog) : List (ReceiptKey × OriginalCutoffDescriptor) →
    SeenIdentities → Nat → Except ReceiptLedgerError (List EncodedRecord × Nat)
  | [], _, generation => pure ([], generation)
  | (key, cutoff) :: rest, seen, generation => do
      let digest := receiptKeyDigest key
      refuseIf (c.contains digest ∨ (c.invocationIndex.lookup key.invocationId).isSome
          ∨ (c.reservedTaskIndex.lookup key.reservedTaskId).isSome ∨ seen.clashes key)
        .receiptRowPresentUnsupported
      let sequence ← nextSequence generation
      let row ← serializeReservedRecord (buildReservedRecord key digest cutoff sequence .initial false)
        maxTaskRecordEnvelopeBytes
      let (rows, generation) ← reserveRows c rest (seen.add key) sequence
      pure (row :: rows, generation)

/-- The reservations a batch has just committed. -/
def committedReservations (c : ReceiptCatalog) :
    List ReceiptKey → Except ReceiptLedgerError (List ReservedReceipt)
  | [] => pure []
  | key :: rest => do
      let entry ← okOr .receiptNotFound (c.records.lookup (receiptKeyDigest key))
      let reservation ← entry.reservation
      let reservations ← committedReservations c rest
      pure (reservation :: reservations)

def reserveBatch (name : BatchName) (requests : List (ReceiptKey × OriginalCutoffDescriptor)) :
    Ledger (List ReservedReceipt) := do
  let generation ← enterBatch requests.length
  let w ← get
  let (rows, finalGeneration) ← compute (reserveRows w.catalog requests .none generation)
  let entries := rows.map EncodedRecord.entry
  compute (validateCatalogInsertBatch w.catalog entries)
  publishRecordBatch name rows finalGeneration fun c => entries.foldl commitCatalogInsert c
  let w ← get
  compute (committedReservations w.catalog (requests.map Prod.fst))

/-- The replacements of a batch. `prepare` checks a request, `encode` builds its row under the
sequence it gets. -/
def replacementRows {ρ β : Type} (digestOf : ρ → ReceiptKeyDigest)
    (prepare : ρ → Except ReceiptLedgerError β)
    (encode : β → Nat → Except ReceiptLedgerError (CatalogEntry × EncodedRecord)) :
    List ρ → List ReceiptKeyDigest → Nat →
      Except ReceiptLedgerError (List (CatalogEntry × EncodedRecord) × Nat)
  | [], _, generation => pure ([], generation)
  | request :: rest, seen, generation => do
      refuseIf (digestOf request ∈ seen) .receiptRowPresentUnsupported
      let prepared ← prepare request
      let sequence ← nextSequence generation
      let pair ← encode prepared sequence
      let (pairs, generation) ←
        replacementRows digestOf prepare encode rest (digestOf request :: seen) sequence
      pure (pair :: pairs, generation)

/-- Check and publish a batch of replacements, with `copied` rows beside them. -/
def publishReplacements (name : BatchName) (pairs : List (CatalogEntry × EncodedRecord))
    (copied : List EncodedRecord) (finalGeneration : Nat) : Ledger Unit := do
  let w ← get
  let replacements := pairs.map fun pair => (pair.1, pair.2.entry)
  compute (validateCatalogReplaceBatch w.catalog replacements)
  publishRecordBatch name (pairs.map Prod.snd ++ copied) finalGeneration fun c =>
    replacements.foldl (fun c pair => commitCatalogReplace c pair.2) c

/-- A catalogued receipt a batch may replace: right key and version, no body left on disk. -/
def batchExpected (c : ReceiptCatalog) (key : ReceiptKey) (expectedVersion : ReceiptVersion) :
    Except ReceiptLedgerError CatalogEntry := do
  let expected ← okOr .receiptNotFound (c.records.lookup (receiptKeyDigest key))
  refuseIf (expected.record.key ≠ key ∨ expected.record.recordVersion ≠ expectedVersion)
    (.receiptVersionMismatch expectedVersion expected.record.recordVersion)
  refuseIf expected.record.lifecycle.resultBodyIsOnDisk .receiptRowPresentUnsupported
  pure expected

/-- The phase a batch transition leads to. Unlike `nextReservedPhase` it does not look at the
cancellation. -/
def nextBatchPhase (begun : Bool) (reserved : ReservedReceipt)
    (workspaceIdentity : SafeIdentityHash) : Except ReceiptLedgerError ReservedPhase :=
  match begun, reserved.phase with
  | true, .actorBound bound =>
      if bound = workspaceIdentity then .ok (.begun workspaceIdentity)
      else .error .receiptRowPresentUnsupported
  | false, .unbound => .ok (.actorBound workspaceIdentity)
  | _, _ => .error .receiptRowPresentUnsupported

def prepareTransition (c : ReceiptCatalog) (begun : Bool)
    (request : ReceiptKey × ReceiptVersion × SafeIdentityHash) :
    Except ReceiptLedgerError (CatalogEntry × ReceiptVersion × ReservedPhase) := do
  let (key, expectedVersion, workspaceIdentity) := request
  let expected ← batchExpected c key expectedVersion
  let reserved ← expected.reservation
  let phase ← nextBatchPhase begun reserved workspaceIdentity
  pure (expected, expectedVersion, phase)

def encodeTransition (prepared : CatalogEntry × ReceiptVersion × ReservedPhase) (sequence : Nat) :
    Except ReceiptLedgerError (CatalogEntry × EncodedRecord) := do
  let (expected, expectedVersion, phase) := prepared
  let version ← nextRecordVersion expectedVersion
  let record ← buildReservedPhaseRecord expected phase sequence version
  let row ← serializeReservedRecord record maxTaskRecordEnvelopeBytes
  pure (expected, row)

def transitionReservedBatch (name : BatchName)
    (requests : List (ReceiptKey × ReceiptVersion × SafeIdentityHash)) (begun : Bool) :
    Ledger (List ReservedReceipt) := do
  let generation ← enterBatch requests.length
  let w ← get
  let (pairs, finalGeneration) ← compute (replacementRows
    (fun request => receiptKeyDigest request.1) (prepareTransition w.catalog begun)
    encodeTransition requests [] generation)
  publishReplacements name pairs [] finalGeneration
  let w ← get
  compute (committedReservations w.catalog (requests.map Prod.fst))

def bindReservedActorBatch (name : BatchName)
    (requests : List (ReceiptKey × ReceiptVersion × SafeIdentityHash)) : Ledger (List ReservedReceipt) :=
  transitionReservedBatch name requests false

def markReservedBegunBatch (name : BatchName)
    (requests : List (ReceiptKey × ReceiptVersion × SafeIdentityHash)) : Ledger (List ReservedReceipt) :=
  transitionReservedBatch name requests true

structure DirectRequest where
  key : ReceiptKey
  expectedVersion : ReceiptVersion
  terminalEpochMs : EpochMs
  terminal : V5CanonicalTerminal

def prepareDirect (c : ReceiptCatalog) (request : DirectRequest) :
    Except ReceiptLedgerError (CatalogEntry × ReservedReceipt × ReceiptVersion × DirectRequest) := do
  let expected ← batchExpected c request.key request.expectedVersion
  let reserved ← expected.reservation
  let version ← nextRecordVersion request.expectedVersion
  pure (expected, reserved, version, request)

def encodeDirect (prepared : CatalogEntry × ReservedReceipt × ReceiptVersion × DirectRequest)
    (sequence : Nat) : Except ReceiptLedgerError (CatalogEntry × EncodedRecord) := do
  let (expected, reserved, version, request) := prepared
  let row ← prepareDirectTerminal request.key version sequence reserved.originalCutoff
    request.terminal request.terminalEpochMs
  pure (expected, row)

def publishDirectTerminalBatch (name : BatchName) (requests : List DirectRequest) : Ledger Unit := do
  let generation ← enterBatch requests.length
  let w ← get
  let (pairs, finalGeneration) ← compute (replacementRows
    (fun request => receiptKeyDigest request.key) (prepareDirect w.catalog)
    encodeDirect requests [] generation)
  publishReplacements name pairs [] finalGeneration

/-- The digest in the catalog identifies the body; no body is read. -/
def prepareAcknowledgement (c : ReceiptCatalog) (request : ReceiptKey × TerminalDigest × EpochMs) :
    Except ReceiptLedgerError (CatalogEntry × ReceiptKey × TerminalDigest × EpochMs) := do
  let (key, terminalDigest, _) := request
  let expected ← okOr .receiptNotFound (c.records.lookup (receiptKeyDigest key))
  let committed ← okOr .receiptRowPresentUnsupported expected.directTerminalDigest
  refuseIf (committed ≠ terminalDigest) .terminalMismatch
  pure (expected, request)

def encodeAcknowledgement (prepared : CatalogEntry × ReceiptKey × TerminalDigest × EpochMs)
    (sequence : Nat) : Except ReceiptLedgerError (CatalogEntry × EncodedRecord) := do
  let (expected, key, terminalDigest, acknowledgedAtEpochMs) := prepared
  let version ← nextRecordVersion expected.record.recordVersion
  let row ← serializeReservedRecord
    (buildTombstoneRecord key sequence version terminalDigest acknowledgedAtEpochMs)
    maxAcknowledgedTombstoneBytes
  let _ ← AcknowledgedTombstoneReceipt.new key (receiptKeyDigest key) terminalDigest
    acknowledgedAtEpochMs row.entry.encodedBytes
  pure (expected, row)

/-- The tombstones the compaction envelope still backs, in digest order. -/
def compactedRows (c : ReceiptCatalog) (backing : BatchName) (rows : List EncodedRecord) :
    List EncodedRecord :=
  (rows.filter fun row =>
    decide (c.batchBacking.lookup row.record.keyDigest = some backing)
      && (c.records.lookup row.record.keyDigest).any fun entry =>
        entry.isTombstone && decide (entry.record = row.record)).insertionSort
    fun left right => left.record.keyDigest ≤ right.record.keyDigest

def serializeCompacted : List EncodedRecord → Except ReceiptLedgerError (List EncodedRecord)
  | [] => pure []
  | row :: rest => do
      let encoded ← serializeReservedRecord row.record maxAcknowledgedTombstoneBytes
      let rows ← serializeCompacted rest
      pure (encoded :: rows)

/-- The rows of the compaction envelope that the new envelope takes over, if they fit. -/
def takeCompacted (newRows : Nat) : Ledger (List EncodedRecord) := do
  let w ← get
  match w.catalog.tombstoneCompactionBacking with
  | none => pure []
  | some backing => do
      let rows ← latchCatalogResult (readVerifiedReceiptBatch backing)
      let compacted := compactedRows w.catalog backing rows
      if newRows + compacted.length ≤ maxReceiptBatchEnvelopeRows then
        compute (serializeCompacted compacted)
      else pure []

def acknowledgeDirectBatch (name : BatchName)
    (requests : List (ReceiptKey × TerminalDigest × EpochMs)) : Ledger Unit := do
  let generation ← enterBatch requests.length
  let w ← get
  let (pairs, finalGeneration) ← compute (replacementRows
    (fun request => receiptKeyDigest request.1) (prepareAcknowledgement w.catalog)
    encodeAcknowledgement requests [] generation)
  let copied ← takeCompacted pairs.length
  publishReplacements name pairs copied finalGeneration

/-- No identity appears twice among the keys. -/
def checkDistinctIdentities : List ReceiptKey → SeenIdentities → Except ReceiptLedgerError Unit
  | [], _ => pure ()
  | key :: rest, seen => do
      refuseIf (seen.clashes key) .invocationIdentityMismatch
      checkDistinctIdentities rest (seen.add key)

/-- First round of a cancelled batch: every key is reserved for cancellation. -/
def shadowCancelReserved : List (ReceiptKey × OriginalCutoffDescriptor) → ReceiptCatalog → Nat →
    Except ReceiptLedgerError (ReceiptCatalog × Nat)
  | [], shadow, generation => pure (shadow, generation)
  | (key, cutoff) :: rest, shadow, generation => do
      let sequence ← nextSequence generation
      let row ← serializeReservedRecord (buildCancelReservedRecord key
        (receiptKeyDigest key) cutoff.acceptedEpochMs sequence) maxCancelReservedRecordBytes
      validateCatalogInsert shadow row.entry false
      shadowCancelReserved rest (commitCatalogInsert shadow row.entry) sequence

/-- Second round: every cancellation becomes a cancelled submit. -/
def shadowReserved : List (ReceiptKey × OriginalCutoffDescriptor) → ReceiptCatalog → Nat →
    Except ReceiptLedgerError (ReceiptCatalog × Nat)
  | [], shadow, generation => pure (shadow, generation)
  | (key, cutoff) :: rest, shadow, generation => do
      let digest := receiptKeyDigest key
      let expected ← okOr .receiptNotFound (shadow.records.lookup digest)
      let sequence ← nextSequence generation
      let version ← nextRecordVersion expected.record.recordVersion
      let row ← serializeReservedRecord (buildReservedRecord key digest cutoff sequence version true)
        maxTaskRecordEnvelopeBytes
      validateCatalogReplace shadow expected row.entry
      shadowReserved rest (commitCatalogReplace shadow row.entry) sequence

/-- Third round: every submit is finished. Only these rows are written. -/
def shadowDirect (terminal : V5CanonicalTerminal) (terminalEpochMs : EpochMs) :
    List (ReceiptKey × OriginalCutoffDescriptor) → ReceiptCatalog → Nat →
      Except ReceiptLedgerError (List EncodedRecord × ReceiptCatalog × Nat)
  | [], shadow, generation => pure ([], shadow, generation)
  | (key, cutoff) :: rest, shadow, generation => do
      let expected ← okOr .receiptNotFound (shadow.records.lookup (receiptKeyDigest key))
      let version ← nextRecordVersion expected.record.recordVersion
      let sequence ← nextSequence generation
      let row ← prepareDirectTerminal key version sequence cutoff terminal terminalEpochMs
      validateCatalogReplace shadow expected row.entry
      let (rows, shadow, generation) ←
        shadowDirect terminal terminalEpochMs rest (commitCatalogReplace shadow row.entry) sequence
      pure (row :: rows, shadow, generation)

def committedDirects (c : ReceiptCatalog) (terminal : V5CanonicalTerminal) :
    List ReceiptKey → Except ReceiptLedgerError (List DirectTerminalUnackedReceipt)
  | [] => pure []
  | key :: rest => do
      let entry ← okOr .receiptNotFound (c.records.lookup (receiptKeyDigest key))
      match ← (entry.withResultBody terminal).state with
      | .directTerminalUnacked receipt => do
          let receipts ← committedDirects c terminal rest
          pure (receipt :: receipts)
      | _ => .error .receiptRowPresentUnsupported

def publishCancelledDirectBatch (name : BatchName)
    (requests : List (ReceiptKey × OriginalCutoffDescriptor)) (terminalEpochMs : EpochMs)
    (terminal : V5CanonicalTerminal) : Ledger (List DirectTerminalUnackedReceipt) := do
  compute (refuseIf (requests = [] ∨ maxReceiptMutationBatchRows < requests.length)
    .receiptRowPresentUnsupported)
  compute (refuseIf (terminal.outcome ≠ .cancelled) .terminalMismatch)
  checkDeadline
  enter
  compute (checkDistinctIdentities (requests.map Prod.fst) .none)
  let generation ← latchCatalogResult generationUnderWriterLock
  let w ← get
  let (shadow, generation) ← compute (shadowCancelReserved requests w.catalog generation)
  let (shadow, generation) ← compute (shadowReserved requests shadow generation)
  let (rows, shadow, finalGeneration) ←
    compute (shadowDirect terminal terminalEpochMs requests shadow generation)
  publishRecordBatch name rows finalGeneration fun _ => shadow
  let w ← get
  compute (committedDirects w.catalog terminal (requests.map Prod.fst))

end Unica.Receipt
