import Unica.Lib.Checked
import Unica.Lib.Table

/-!
# Receipt ledger data

The records the receipt ledger persists and the values its callers exchange with
it. Identifiers, hashes and epochs are naturals; the hash functions, the JSON
lengths and the canonical form of a terminal are the codec's and stay abstract.
A result body the catalog leaves on disk is `none`.
-/

namespace Unica.Receipt

open Lib

/-- One past the largest `u64`; `usize` has the same width. -/
abbrev wordBound : Nat := 2 ^ 64

abbrev InvocationId := Nat
abbrev TaskId := Nat
abbrev ReceiptKeyDigest := Nat
abbrev TaskLinkDigest := Nat
abbrev TerminalDigest := Nat
abbrev SafeIdentityHash := Nat
abbrev EpochMs := Nat

def receiptRecordSchemaVersion : Nat := 1
def persistentCancelRecordSchemaVersion : Nat := 2
def maxCancelReservedRecordBytes : Nat := 1024
def maxCompletedTaskHandoffWitnessBytes : Nat := 2048
def maxReceiptMutationBatchRows : Nat := 32
def maxReceiptBatchEnvelopeRows : Nat := 256
def maxReceiptBatchBytes : Nat := 1048576
def maxCanonicalResultBytes : Nat := 8 * 1024 * 1024
def maxTaskRecordEnvelopeBytes : Nat := 64 * 1024
def maxReceiptEntitlementBytes : Nat := maxCanonicalResultBytes + maxTaskRecordEnvelopeBytes
def maxOriginalResponseBudgetMs : Nat := 7000
def directTerminalRetentionMs : Nat := 3600000
def legacyCancelReservationTtlMs : Nat := 7125
def acknowledgedTombstoneTtlMs : Nat := 900000
def maxAcknowledgedTombstoneBytes : Nat := 512
def maxTaskLifecycleLinkRecordBytes : Nat := 1024

inductive V5ToolIdentity where
  | view | apply | resolve | search | check | diff | run | docs
  deriving DecidableEq

structure ReceiptKey where
  invocationId : InvocationId
  reservedTaskId : TaskId
  coreIdentityDigest : Nat
  tool : V5ToolIdentity
  normalizedArgumentsHash : Nat
  requestScopeHash : Nat
  deriving DecidableEq

structure OriginalCutoffDescriptor where
  acceptedEpochMs : EpochMs
  responseBudgetMs : Nat
  budget_le : responseBudgetMs ≤ maxOriginalResponseBudgetMs
  cutoff_lt : acceptedEpochMs + responseBudgetMs < wordBound
  deriving DecidableEq

/-- Per-record compare-and-swap version, a nonzero `u64`. -/
@[ext] structure ReceiptVersion where
  get : Nat
  get_pos : 0 < get
  get_lt : get < wordBound

instance : DecidableEq ReceiptVersion := fun _ _ => decidable_of_iff _ ReceiptVersion.ext_iff.symm

namespace ReceiptVersion

def initial : ReceiptVersion := ⟨1, by decide, by decide⟩

/-- The version a compact tombstone without its own version stands for. -/
def tombstoneMarker : ReceiptVersion := ⟨3, by decide, by decide⟩

def expiredTombstoneWitness : ReceiptVersion := ⟨4, by decide, by decide⟩

def checkedNext (v : ReceiptVersion) : Option ReceiptVersion :=
  if h : v.get + 1 < wordBound then some ⟨v.get + 1, by omega, h⟩ else none

end ReceiptVersion

inductive AttemptPhase where
  | notBegun | begun
  deriving DecidableEq

inductive V5SafeFailureReason where
  | invocationFailed | resultTooLarge | interrupted | resumeUnsupported | persistenceFailed
  | outcomeUncertain | taskCapacity | workspaceCapacity | workspaceRegistryFailed | workspaceChanged
  deriving DecidableEq

/-- A finished call. The completed result is its canonical JSON text. -/
inductive ReceiptTerminalOutcome where
  | completed (result : String)
  | failed (reason : V5SafeFailureReason)
  | cancelled
  deriving DecidableEq

/-- The Task projection a row stores field by field, before any check. -/
structure StoredTask where
  taskId : TaskId
  invocationId : InvocationId
  createdAtEpochMs : EpochMs
  updatedAtEpochMs : EpochMs
  ttlMs : Nat
  pollIntervalMs : Nat
  version : Nat
  deriving DecidableEq

inductive ProvenTaskLinkCapacity where
  | count (observedLiveLinks maximumLiveLinks : Nat)
  | bytes (requiredLinkBytes availableLinkBytes : Nat)
  deriving DecidableEq

inductive StoredHandoffTerminalStage where
  | noTerminal
  | staged (terminalEpochMs : EpochMs) (terminalDigest : TerminalDigest)
      (terminal : Option ReceiptTerminalOutcome)
  deriving DecidableEq

structure CompletedTaskHandoff where
  priorRecordVersion : ReceiptVersion
  priorMutationSequence : Nat
  priorCreatedAtEpochMs : EpochMs
  priorTaskVersion : Nat
  workspaceIdentityHash : SafeIdentityHash
  taskLinkDigest : TaskLinkDigest
  taskBoundLifecycleLinkVersion : Nat
  taskBoundMutationSequence : Nat
  taskRecordVersion : Nat
  bindEpochMs : EpochMs
  phase : AttemptPhase
  terminalStaged : Bool
  deriving DecidableEq

inductive StoredActiveLifecycle where
  | cancelReserved (cancelReservedAtEpochMs : EpochMs) (expiresAtEpochMs : Option EpochMs)
      (cancelRequested : Bool)
  | expiredDeletion (observedAtEpochMs : EpochMs) (priorRecordVersion : ReceiptVersion)
      (priorMutationSequence : Nat) (priorCancelReservedAtEpochMs priorExpiresAtEpochMs : EpochMs)
  | expiredTombstoneDeletion (observedAtEpochMs priorAcknowledgedAtEpochMs : EpochMs)
      (priorTerminalDigest : TerminalDigest)
  | expiredDirectDeletion (observedAtEpochMs : EpochMs) (priorRecordVersion : ReceiptVersion)
      (priorMutationSequence : Nat) (priorTerminalEpochMs : EpochMs)
      (priorTerminalDigest : TerminalDigest)
  | expiredTaskReceiptDeletion (observedAtEpochMs : EpochMs) (priorRecordVersion : ReceiptVersion)
      (priorMutationSequence : Nat) (priorTerminalEpochMs : EpochMs) (priorTtlMs : Nat)
      (priorTerminalDigest : TerminalDigest)
  | completedTaskHandoffDeletion (witness : CompletedTaskHandoff)
  | reservedUnbound (reservedAtEpochMs : EpochMs) (originalCutoff : OriginalCutoffDescriptor)
      (cancelRequested : Bool)
  | reservedActorBound (reservedAtEpochMs : EpochMs) (originalCutoff : OriginalCutoffDescriptor)
      (boundWorkspaceIdentity : SafeIdentityHash) (cancelRequested : Bool)
  | reservedBegun (reservedAtEpochMs : EpochMs) (originalCutoff : OriginalCutoffDescriptor)
      (boundWorkspaceIdentity : SafeIdentityHash) (cancelRequested : Bool)
  | taskPromisedUnbound (originalCutoff : OriginalCutoffDescriptor) (task : StoredTask)
      (cancelRequested : Bool)
  | taskPromisedActorBound (originalCutoff : OriginalCutoffDescriptor) (task : StoredTask)
      (workspaceIdentityHash : SafeIdentityHash) (taskLinkDigest : TaskLinkDigest)
      (cancelRequested : Bool)
  | taskHandoffActorBound (originalCutoff : OriginalCutoffDescriptor) (task : StoredTask)
      (workspaceIdentityHash : SafeIdentityHash) (taskLinkDigest : TaskLinkDigest)
      (phase : AttemptPhase) (cancelRequested : Bool) (terminalStage : StoredHandoffTerminalStage)
  | taskReceiptOwnedActorBound (originalCutoff : OriginalCutoffDescriptor) (task : StoredTask)
      (workspaceIdentityHash : SafeIdentityHash) (taskLinkDigest : TaskLinkDigest)
      (provenLinkCapacity : ProvenTaskLinkCapacity) (cancelRequested : Bool)
  | directTerminalUnacked (originalCutoff : OriginalCutoffDescriptor) (terminalEpochMs : EpochMs)
      (terminalDigest : TerminalDigest) (terminal : Option ReceiptTerminalOutcome)
  | taskTerminalReceiptBacked (task : StoredTask) (terminalEpochMs : EpochMs)
      (terminalDigest : TerminalDigest) (terminal : Option ReceiptTerminalOutcome)
      (cancelRequested : Bool)
  | acknowledgementCommit (terminalDigest : TerminalDigest) (acknowledgedAtEpochMs : EpochMs)
      (priorRecordVersion : ReceiptVersion) (priorMutationSequence : Nat)
  | acknowledgedTombstone (terminalDigest : TerminalDigest) (acknowledgedAtEpochMs : EpochMs)
  deriving DecidableEq

structure StoredActiveReceipt where
  schemaVersion : Nat
  mutationSequence : Nat
  recordVersion : ReceiptVersion
  key : ReceiptKey
  keyDigest : ReceiptKeyDigest
  lifecycle : StoredActiveLifecycle
  deriving DecidableEq

/-- The JSON document of a row file. An acknowledged tombstone is written in its
compact form, which keeps neither the digest of its key nor its sequence. -/
inductive PersistedRow where
  | active (record : StoredActiveReceipt)
  | tombstone (key : ReceiptKey) (terminalDigest : TerminalDigest) (ackEpochMs : EpochMs)
      (recordVersion : Option ReceiptVersion)
  deriving DecidableEq

/-- A row inside a batch envelope, with the sequence and version kept beside it. -/
structure StoredReceiptBatchRow where
  mutationSequence : Nat
  recordVersion : ReceiptVersion
  persisted : PersistedRow
  deriving DecidableEq

structure TaskLinkIdentity where
  receiptKeyDigest : ReceiptKeyDigest
  taskId : TaskId
  invocationId : InvocationId
  workspaceIdentityHash : SafeIdentityHash
  deriving DecidableEq

/-- Hashing, canonical terminals and JSON lengths. `terminalDigest` is `none` for an
outcome whose canonical form is too large. -/
class ReceiptCodec where
  receiptKeyDigest : ReceiptKey → ReceiptKeyDigest
  taskLinkDigest : TaskLinkIdentity → TaskLinkDigest
  terminalDigest : ReceiptTerminalOutcome → Option TerminalDigest
  rowLength : PersistedRow → Nat
  wireFrameLength : ReceiptKey → ReceiptTerminalOutcome → EpochMs → Nat
  batchLength : List StoredReceiptBatchRow → Nat
  rowLength_pos : ∀ row, 0 < rowLength row

export ReceiptCodec (receiptKeyDigest rowLength rowLength_pos)

inductive ReceiptLedgerError where
  | deadlineExceeded
  | invocationIdentityMismatch
  | reservedTaskIdentityMismatch
  | taskBoundMismatch
  | taskCancellationMismatch
  | receiptVersionMismatch (expected actual : ReceiptVersion)
  | terminalMismatch
  | receiptDigestCollision
  | receiptNotFound
  | capacityExceeded
  | tombstoneCapacityExceeded
  | recordTooLarge
  | timestampOverflow
  | storeUnavailable
  | commitUncertain (receiptKeyDigest : ReceiptKeyDigest)
  | concurrentGenerationChange (generationBefore generationAfter : Nat)
  | corrupt (message : String)
  | receiptRowPresentUnsupported
  | storage (operation : String)
  /-- Not an error value of the source: the call unwound through `unreachable!`. -/
  | panicked (message : String)
  deriving DecidableEq

def ReceiptLedgerError.requiresReopen : ReceiptLedgerError → Bool
  | .storeUnavailable | .commitUncertain _ | .concurrentGenerationChange _ _
  | .receiptDigestCollision | .corrupt _ | .storage _ => true
  | _ => false

namespace StoredActiveLifecycle

/-- The lifecycle with its result body left on disk. -/
def withoutResultBody : StoredActiveLifecycle → StoredActiveLifecycle
  | directTerminalUnacked cutoff epoch digest _ => directTerminalUnacked cutoff epoch digest none
  | taskTerminalReceiptBacked task epoch digest _ cancel =>
      taskTerminalReceiptBacked task epoch digest none cancel
  | taskHandoffActorBound cutoff task workspace link phase cancel (.staged epoch digest _) =>
      taskHandoffActorBound cutoff task workspace link phase cancel (.staged epoch digest none)
  | lifecycle => lifecycle

def resultBodyIsOnDisk : StoredActiveLifecycle → Bool
  | directTerminalUnacked _ _ _ none | taskTerminalReceiptBacked _ _ _ none _
  | taskHandoffActorBound _ _ _ _ _ _ (.staged _ _ none) => true
  | _ => false

def withResultBody (outcome : ReceiptTerminalOutcome) : StoredActiveLifecycle → StoredActiveLifecycle
  | directTerminalUnacked cutoff epoch digest _ =>
      directTerminalUnacked cutoff epoch digest (some outcome)
  | taskTerminalReceiptBacked task epoch digest _ cancel =>
      taskTerminalReceiptBacked task epoch digest (some outcome) cancel
  | taskHandoffActorBound cutoff task workspace link phase cancel (.staged epoch digest _) =>
      taskHandoffActorBound cutoff task workspace link phase cancel (.staged epoch digest (some outcome))
  | lifecycle => lifecycle

def isTombstone : StoredActiveLifecycle → Bool
  | acknowledgedTombstone _ _ => true
  | _ => false

/-- Lifecycles that hold the fixed result entitlement of an admitted receipt. -/
def holdsEntitlement : StoredActiveLifecycle → Bool
  | reservedUnbound .. | reservedActorBound .. | reservedBegun .. | taskPromisedUnbound ..
  | taskPromisedActorBound .. | taskHandoffActorBound .. | taskReceiptOwnedActorBound ..
  | directTerminalUnacked .. | taskTerminalReceiptBacked .. => true
  | _ => false

@[simp] theorem withoutResultBody_idem (l : StoredActiveLifecycle) :
    l.withoutResultBody.withoutResultBody = l.withoutResultBody := by
  cases l with
  | taskHandoffActorBound c t w d p q stage => cases stage <;> rfl
  | _ => rfl

@[simp] theorem isTombstone_withoutResultBody (l : StoredActiveLifecycle) :
    l.withoutResultBody.isTombstone = l.isTombstone := by
  cases l with
  | taskHandoffActorBound c t w d p q stage => cases stage <;> rfl
  | _ => rfl

@[simp] theorem holdsEntitlement_withoutResultBody (l : StoredActiveLifecycle) :
    l.withoutResultBody.holdsEntitlement = l.holdsEntitlement := by
  cases l with
  | taskHandoffActorBound c t w d p q stage => cases stage <;> rfl
  | _ => rfl

end StoredActiveLifecycle

namespace StoredActiveReceipt

def withoutResultBody (r : StoredActiveReceipt) : StoredActiveReceipt :=
  { r with lifecycle := r.lifecycle.withoutResultBody }

/-- Equality of two copies of a record whichever of them holds the body. -/
def sameRecord (r s : StoredActiveReceipt) : Prop := r.withoutResultBody = s.withoutResultBody

instance (r s : StoredActiveReceipt) : Decidable (r.sameRecord s) :=
  inferInstanceAs (Decidable (_ = _))

@[simp] theorem withoutResultBody_idem (r : StoredActiveReceipt) :
    r.withoutResultBody.withoutResultBody = r.withoutResultBody := by
  simp [withoutResultBody]

end StoredActiveReceipt

end Unica.Receipt
