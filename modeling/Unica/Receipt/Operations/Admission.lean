import Unica.Receipt.Operations.Reclaim

/-!
# Reserving, cancelling, finishing and acknowledging a receipt

The single-row operations of a receipt that never becomes a Task, and the reads.
-/

namespace Unica.Receipt

open Lib Lib.Prog

variable [ReceiptCodec]

inductive ReserveOutcome where
  | created (reservation : ReservedReceipt)
  | existingExact (state : ReceiptState)

inductive CancelResolution where
  | newlyReserved (receipt : CancelReservedReceipt)
  | existingExact (receipt : CancelReservedReceipt)
  | existingWinner (state : ReceiptState)

/-- A reservation must leave room for the whole entitlement. -/
def checkReservationCapacity (c : ReceiptCatalog) (encodedBytes : Nat) :
    Except ReceiptLedgerError Unit := do
  let actual ← okOr .capacityExceeded (checkedAdd wordBound c.actualBytes encodedBytes)
  let derived ← okOr .recordTooLarge (checkedSub maxReceiptEntitlementBytes encodedBytes)
  let reserved ← okOr .capacityExceeded (checkedAdd wordBound c.reservedResultBytes derived)
  refuseIf (checkedAdd wordBound actual reserved = none) .capacityExceeded

/-- The admission half of `reserve`, once no receipt holds the key. -/
def admitReservation (key : ReceiptKey) (originalCutoff : OriginalCutoffDescriptor) :
    Ledger ReserveOutcome := do
  prepareNewAdmissionUnderWriterLock key originalCutoff.acceptedEpochMs
  let generation ← latchCatalogResult generationUnderWriterLock
  let sequence ← orReject (nextSequence generation)
  let r ← orReject (serializeReservedRecord
    (buildReservedRecord key (receiptKeyDigest key) originalCutoff sequence .initial false)
    maxTaskRecordEnvelopeBytes)
  let w ← get
  orReject (checkReservationCapacity w.catalog r.entry.encodedBytes)
  orReject (validateCatalogInsert w.catalog r.entry false)
  commitNewRow r
  confirmAuthority r.record.keyDigest
  let committed ← committedExactly r
  let reservation ← compute committed.reservation
  pure (.created reservation)

/-- The admission half of `request_cancel_or_reserve`. -/
def admitCancellation (key : ReceiptKey) (cancelReservedAtEpochMs : EpochMs) :
    Ledger CancelResolution := do
  prepareNewAdmissionUnderWriterLock key cancelReservedAtEpochMs
  let generation ← latchCatalogResult generationUnderWriterLock
  let sequence ← orReject (nextSequence generation)
  let r ← orReject (serializeReservedRecord
    (buildCancelReservedRecord key (receiptKeyDigest key) cancelReservedAtEpochMs sequence)
    maxCancelReservedRecordBytes)
  let w ← get
  orReject (validateCatalogInsert w.catalog r.entry false)
  commitNewRow r
  confirmAuthority r.record.keyDigest
  let committed ← committedExactly r
  match committed.state with
  | .ok (.cancelReserved receipt) => pure (.newlyReserved receipt)
  | _ => latchCatalogError (.commitUncertain r.record.keyDigest)

/-- A submit that arrives after its own cancellation starts cancelled. -/
def convertCancelReservedToSubmit (expected : CatalogEntry) (key : ReceiptKey)
    (originalCutoff : OriginalCutoffDescriptor) : Ledger ReserveOutcome := do
  let digest := expected.record.keyDigest
  let cancelRequested ← match expected.record.lifecycle with
    | .cancelReserved .. => pure true
    | _ => latchCatalogError (.corrupt "cancel conversion requires a CancelReserved predecessor")
  let version ← orLatch (nextRecordVersion expected.record.recordVersion)
  let generation ← latchCatalogResult generationUnderWriterLock
  let sequence ← orLatch (nextSequence generation)
  let r ← orReject (serializeReservedRecord
    (buildReservedRecord key digest originalCutoff sequence version cancelRequested)
    maxTaskRecordEnvelopeBytes)
  let w ← get
  match validateCatalogReplace w.catalog expected r.entry with
  | .ok () => pure ()
  | .error e => if e.requiresReopen then latchCatalogError e else rejectBeforeMutation e
  commitReplacementRow r
  confirmAuthority digest
  let committed ← committedExactly r
  match committed.reservation with
  | .ok reservation => pure (.created reservation)
  | .error _ => latchCatalogError (.commitUncertain digest)

/-- The reclaimer of a receipt whose retention is over at the time of a request. -/
def expiredReclaimer (state : ReceiptState) (observedAtEpochMs : EpochMs) : Option ExpiryReclaimer :=
  match state with
  | .acknowledgedTombstone receipt =>
      if receipt.acknowledgedAtEpochMs + acknowledgedTombstoneTtlMs ≤ observedAtEpochMs then
        some tombstoneReclaimer
      else none
  | .directTerminalUnacked receipt =>
      if retentionIsOver receipt.terminalEpochMs directTerminalRetentionMs observedAtEpochMs then
        some directTerminalReclaimer
      else none
  | _ => none

/-- The receipt a request finds under its own key. -/
def readExisting (key : ReceiptKey) (existing : CatalogEntry) :
    Ledger (CatalogEntry × ReceiptState) := do
  if existing.record.key ≠ key then rejectBeforeMutation .receiptDigestCollision else pure ()
  match ← readEntryUnderWriterLock (receiptKeyDigest key) with
  | none => throw (.corrupt "catalogued receipt row is missing")
  | some persisted => do
      let state ← orLatch persisted.state
      pure (persisted, state)

def reserve (key : ReceiptKey) (originalCutoff : OriginalCutoffDescriptor) :
    Ledger ReserveOutcome := do
  checkDeadline
  lockCatalog
  refuseUnavailable
  checkDeadline
  latchCatalogResult verifyNamedAuthority
  let digest := receiptKeyDigest key
  let w ← get
  match w.catalog.records.lookup digest with
  | none => admitReservation key originalCutoff
  | some existing => do
      let (persisted, state) ← readExisting key existing
      match state with
      | .cancelReserved _ => convertCancelReservedToSubmit persisted key originalCutoff
      | state =>
          match expiredReclaimer state originalCutoff.acceptedEpochMs with
          | some reclaimer => do
              reclaimer.reclaim digest originalCutoff.acceptedEpochMs
              admitReservation key originalCutoff
          | none => pure (.existingExact state)

def commitReservedCancelUnderWriterLock (persisted : CatalogEntry) : Ledger ReservedReceipt := do
  let version ← compute (nextRecordVersion persisted.record.recordVersion)
  let sequence ← nextMutationSequence
  let record ← compute (buildReservedCancelRecord persisted sequence version)
  let _ ← replaceRow persisted record maxTaskRecordEnvelopeBytes
  let committed ← committedEntry persisted.record.keyDigest
  compute committed.reservation

def requestCancelOrReserve (key : ReceiptKey) (cancelReservedAtEpochMs : EpochMs) :
    Ledger CancelResolution := do
  checkDeadline
  lockCatalog
  refuseUnavailable
  checkDeadline
  latchCatalogResult verifyNamedAuthority
  let digest := receiptKeyDigest key
  let w ← get
  match w.catalog.records.lookup digest with
  | none => admitCancellation key cancelReservedAtEpochMs
  | some existing => do
      let (persisted, state) ← readExisting key existing
      match state with
      | .cancelReserved receipt => pure (.existingExact receipt)
      | .reserved receipt =>
          if receipt.cancelRequested then pure (.existingWinner (.reserved receipt))
          else do
            let cancelled ← commitReservedCancelUnderWriterLock persisted
            pure (.existingWinner (.reserved cancelled))
      | state =>
          match expiredReclaimer state cancelReservedAtEpochMs with
          | some reclaimer => do
              reclaimer.reclaim digest cancelReservedAtEpochMs
              admitCancellation key cancelReservedAtEpochMs
          | none => pure (.existingWinner state)

inductive ReservedPhaseTransition where
  | bindActor (boundWorkspaceIdentity : SafeIdentityHash)
  | markBegun

/-- The phase a single-row transition leads to. A cancelled reservation goes no further. -/
def nextReservedPhase (transition : ReservedPhaseTransition) (reserved : ReservedReceipt) :
    Except ReceiptLedgerError ReservedPhase :=
  if reserved.cancelRequested then .error .receiptRowPresentUnsupported
  else
    match transition, reserved.phase with
    | .bindActor identity, .unbound => .ok (.actorBound identity)
    | .markBegun, .actorBound identity => .ok (.begun identity)
    | _, _ => .error .receiptRowPresentUnsupported

def transitionReservedPhase (key : ReceiptKey) (expectedVersion : ReceiptVersion)
    (transition : ReservedPhaseTransition) : Ledger ReservedReceipt := do
  checkDeadline
  enter
  let persisted ← readExactEntry key
  checkVersion persisted expectedVersion
  let reserved ← compute persisted.reservation
  let phase ← compute (nextReservedPhase transition reserved)
  let version ← compute (nextRecordVersion expectedVersion)
  let sequence ← nextMutationSequence
  let record ← compute (buildReservedPhaseRecord persisted phase sequence version)
  let _ ← replaceRow persisted record maxTaskRecordEnvelopeBytes
  let committed ← committedEntry (receiptKeyDigest key)
  compute committed.reservation

def bindReservedActor (key : ReceiptKey) (expectedVersion : ReceiptVersion)
    (boundWorkspaceIdentity : SafeIdentityHash) : Ledger ReservedReceipt :=
  transitionReservedPhase key expectedVersion (.bindActor boundWorkspaceIdentity)

def markReservedBegun (key : ReceiptKey) (expectedVersion : ReceiptVersion) : Ledger ReservedReceipt :=
  transitionReservedPhase key expectedVersion .markBegun

/-- What a publication finds: the same terminal already committed, or a reservation to finish. -/
def directPublicationCutoff (state : ReceiptState) (terminalEpochMs : EpochMs)
    (terminal : V5CanonicalTerminal) :
    Except ReceiptLedgerError (DirectTerminalUnackedReceipt ⊕ OriginalCutoffDescriptor) :=
  match state with
  | .directTerminalUnacked committed =>
      if committed.terminalEpochMs = terminalEpochMs ∧ committed.terminal = terminal then
        .ok (.inl committed)
      else .error .terminalMismatch
  | .reserved reserved => .ok (.inr reserved.originalCutoff)
  | _ => .error .receiptRowPresentUnsupported

def publishDirectTerminalPublication (key : ReceiptKey) (expectedVersion : ReceiptVersion)
    (terminalEpochMs : EpochMs) (terminal : V5CanonicalTerminal) :
    Ledger DirectTerminalUnackedReceipt := do
  checkDeadline
  lockCatalog
  let persisted ← readFencedEntry key
  let state ← orLatch persisted.state
  match ← compute (directPublicationCutoff state terminalEpochMs terminal) with
  | .inl committed => do
      orLatchIfReopen (prepareCommittedDirectWire committed)
      pure committed
  | .inr originalCutoff => do
      checkVersion persisted expectedVersion
      let version ← orLatch (nextRecordVersion expectedVersion)
      let generation ← latchCatalogResult generationUnderWriterLock
      let sequence ← orLatch (nextSequence generation)
      let r ← orLatchIfReopen
        (prepareDirectTerminal key version sequence originalCutoff terminal terminalEpochMs)
      let w ← get
      orLatchIfReopen (validateCatalogReplace w.catalog persisted r.entry)
      commitReplacementRow r
      confirmAuthority r.record.keyDigest
      pure ⟨r.entry.recordHeader, originalCutoff, terminalEpochMs, terminal,
        r.entry.reservedResultBytes⟩

/-- The two rows an acknowledgement writes: a witness that carries the sequence, then the compact
tombstone. -/
def commitAcknowledgement (witness tombstone : EncodedRecord) : Ledger Unit := do
  let digest := tombstone.record.keyDigest
  latchUnlessDeadline (publishReplacementRecord witness.record.keyDigest witness.row id)
  latchCatalogResult (publishGeneration witness.record.mutationSequence (some digest))
  latchCatalogResult (uncertain digest (publishReplacementRecord digest tombstone.row
    (World.mapCatalog fun c => commitCatalogReplace c tombstone.entry)))
  confirmCommittedRow digest tombstone.row
  confirmAuthority digest

def buildTombstoneRecord (key : ReceiptKey) (mutationSequence : Nat) (recordVersion : ReceiptVersion)
    (terminalDigest : TerminalDigest) (acknowledgedAtEpochMs : EpochMs) : StoredActiveReceipt :=
  { schemaVersion := receiptRecordSchemaVersion
    mutationSequence, recordVersion, key
    keyDigest := receiptKeyDigest key
    lifecycle := .acknowledgedTombstone terminalDigest acknowledgedAtEpochMs }

/-- The mutation half of `acknowledge_direct`. -/
def acknowledgePersisted (key : ReceiptKey) (persisted : CatalogEntry)
    (terminalDigest : TerminalDigest) (acknowledgedAtEpochMs : EpochMs) :
    Ledger AcknowledgedTombstoneReceipt := do
  latchCatalogResult (materializeBatchBackedRecord (receiptKeyDigest key))
  let version ← compute (nextRecordVersion persisted.record.recordVersion)
  let tombstone ← compute (serializeReservedRecord
    (buildTombstoneRecord key 0 version terminalDigest acknowledgedAtEpochMs)
    maxAcknowledgedTombstoneBytes)
  let w ← get
  orReject (validateCatalogReplace w.catalog persisted tombstone.entry)
  let sequence ← nextMutationSequence
  let record ← compute
    (buildAcknowledgementCommitRecord persisted terminalDigest acknowledgedAtEpochMs sequence)
  let witness ← compute (serializeReservedRecord record maxCancelReservedRecordBytes)
  commitAcknowledgement witness tombstone
  compute (AcknowledgedTombstoneReceipt.new key (receiptKeyDigest key) terminalDigest
    acknowledgedAtEpochMs tombstone.entry.encodedBytes)

def acknowledgeDirect (key : ReceiptKey) (terminalDigest : TerminalDigest)
    (acknowledgedAtEpochMs : EpochMs) : Ledger AcknowledgedTombstoneReceipt := do
  checkDeadline
  let _ ← compute (okOr .timestampOverflow
    (checkedAdd wordBound acknowledgedAtEpochMs acknowledgedTombstoneTtlMs))
  lockCatalog
  let persisted ← readFencedEntry key
  let state ← orLatch persisted.state
  match state with
  | .acknowledgedTombstone tombstone =>
      if tombstone.terminalDigest ≠ terminalDigest then rejectBeforeMutation .terminalMismatch
      else
        match expiredReclaimer state acknowledgedAtEpochMs with
        | some reclaimer => do
            reclaimer.reclaim (receiptKeyDigest key) acknowledgedAtEpochMs
            throw .receiptNotFound
        | none => pure tombstone
  | .directTerminalUnacked receipt =>
      match expiredReclaimer state acknowledgedAtEpochMs with
      | some reclaimer => do
          reclaimer.reclaim (receiptKeyDigest key) acknowledgedAtEpochMs
          throw .receiptNotFound
      | none =>
          if receipt.terminal.digest ≠ terminalDigest then rejectBeforeMutation .terminalMismatch
          else acknowledgePersisted key persisted terminalDigest acknowledgedAtEpochMs
  | _ => rejectBeforeMutation .receiptRowPresentUnsupported

def readReserved (digest : ReceiptKeyDigest) : Ledger (Option ReservedReceipt) := do
  lockCatalog
  match ← readEntryUnderWriterLock digest with
  | none => pure none
  | some entry => do
      let reservation ← compute entry.reservation
      pure (some reservation)

def identityMismatch (key : ReceiptKey) (c : ReceiptCatalog) : Option ReceiptLedgerError :=
  let digest := receiptKeyDigest key
  if (c.invocationIndex.lookup key.invocationId).any (· ≠ digest) then
    some .invocationIdentityMismatch
  else if (c.reservedTaskIndex.lookup key.reservedTaskId).any (· ≠ digest) then
    some .reservedTaskIdentityMismatch
  else none

/-- Reads a receipt; with an observation time it first reclaims one whose retention is over. -/
def recoverExactInner (key : ReceiptKey) (observedAtEpochMs : Option EpochMs) :
    Ledger ReceiptState := do
  checkDeadline
  let digest := receiptKeyDigest key
  lockCatalog
  match ← inspectCatalogUnderStableFence (identityMismatch key) with
  | some e => throw e
  | none => pure ()
  match ← readEntryUnderWriterLock digest with
  | none => do
      checkDeadline
      throw .receiptNotFound
  | some entry => do
      refuseWithLatch (entry.record.key ≠ key) .receiptDigestCollision
      let state ← orLatch entry.state
      match observedAtEpochMs.bind fun observed =>
          (expiredReclaimer state observed).map fun reclaimer => (reclaimer, observed) with
      | some (reclaimer, observed) => do
          reclaimer.reclaim digest observed
          throw .receiptNotFound
      | none => do
          checkDeadline
          pure state

def isTaskState : ReceiptState → Bool
  | .taskPromisedUnbound _ | .taskPromisedActorBound _ | .taskHandoffActorBound _
  | .taskReceiptOwnedActorBound _ | .taskTerminalReceiptBacked _ => true
  | _ => false

def resolveTaskExact (taskId : TaskId) : Ledger ReceiptState := do
  checkDeadline
  lockCatalog
  let named ← inspectCatalogUnderStableFence fun c => c.reservedTaskIndex.lookup taskId
  let digest ← compute (okOr .receiptNotFound named)
  match ← readEntryUnderWriterLock digest with
  | none => throw .receiptNotFound
  | some entry => do
      refuseWithLatch (entry.record.key.reservedTaskId ≠ taskId)
        (.corrupt "reserved Task index points to a different Task identity")
      let state ← orLatch entry.state
      if isTaskState state then do
        checkDeadline
        pure state
      else throw .receiptNotFound

end Unica.Receipt
