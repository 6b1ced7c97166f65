import Unica.Receipt.CatalogInvariant
import Unica.Task.Record

/-!
# The catalog snapshot

The store observes its whole catalog and hands the parts to an authority that seals
them. Sealing builds a map of the exact keys by digest and compares each index
with it by length and membership. That tells a set from another set: an index that
lists one key twice and another not at all has the right length and no stranger.
-/

namespace Unica.Receipt

open Lib List Table

structure ReceiptLedgerCatalogSnapshotParts where
  generation : Nat
  keys : List ReceiptKey
  tombstones : List AcknowledgedTombstoneReceipt
  invocationIndex : List ReceiptKey
  reservedTaskIndex : List ReceiptKey
  liveCount : Nat
  actualBytes : Nat
  reservedResultBytes : Nat
  tombstoneBytes : Nat
  deriving DecidableEq

/-- Only `sealSnapshot` builds one. -/
structure ReceiptLedgerCatalogSnapshot where
  parts : ReceiptLedgerCatalogSnapshotParts
  deriving DecidableEq

/-- What sealing collects from the keys it has seen. -/
structure SealedKeys where
  exactKeys : Table ReceiptKeyDigest ReceiptKey := ∅
  invocationIds : Finset InvocationId := ∅
  reservedTaskIds : Finset TaskId := ∅

theorem foldlM_checkedAdd {receipts : List AcknowledgedTombstoneReceipt} {start total : Nat}
    (h : receipts.foldlM (fun bytes receipt => checkedAdd wordBound bytes receipt.encodedBytes) start = some total) :
    total = start + (receipts.map (·.encodedBytes)).sum := by
  induction receipts generalizing start with
  | nil =>
    cases h
    simp
  | cons receipt rest ih =>
    obtain ⟨next, hnext, hrest⟩ := Option.bind_eq_some_iff.mp h
    obtain ⟨_, rfl⟩ := checkedAdd_eq_some.mp hnext
    rw [ih hrest, map_cons, sum_cons, Nat.add_assoc]

section

variable [ReceiptCodec]

def SealedKeys.insert (seen : SealedKeys) (key : ReceiptKey) : Except ReceiptLedgerError SealedKeys := do
  let digest := receiptKeyDigest key
  refuseIf (seen.exactKeys.lookup digest ≠ none)
    (.corrupt "receipt catalog telemetry contains a duplicate key digest")
  refuseIf (key.invocationId ∈ seen.invocationIds)
    (.corrupt "receipt catalog telemetry contains a duplicate invocation id")
  refuseIf (key.reservedTaskId ∈ seen.reservedTaskIds)
    (.corrupt "receipt catalog telemetry contains a duplicate reserved task id")
  pure ⟨seen.exactKeys.insert digest key, Insert.insert key.invocationId seen.invocationIds,
    Insert.insert key.reservedTaskId seen.reservedTaskIds⟩

def sameExactReceiptKeySet (expected : Table ReceiptKeyDigest ReceiptKey) (observed : List ReceiptKey) : Bool :=
  decide (observed.length = expected.size) && observed.all fun key =>
      (expected.lookup (receiptKeyDigest key)).any fun candidate => decide (candidate = key)

namespace ReceiptLedgerCatalogSnapshotParts

/-- The keys of the live records and then those of the tombstones. -/
def allKeys (parts : ReceiptLedgerCatalogSnapshotParts) : List ReceiptKey :=
  parts.keys ++ parts.tombstones.map (·.key)

/-- `try_fold` with `checked_add` over the sizes. -/
def observedTombstoneBytes (parts : ReceiptLedgerCatalogSnapshotParts) : Option Nat :=
  parts.tombstones.foldlM (fun bytes receipt => checkedAdd wordBound bytes receipt.encodedBytes) 0

/-- `ReceiptLedgerCatalogSnapshotAuthority::seal`. -/
def sealSnapshot (parts : ReceiptLedgerCatalogSnapshotParts) : Except ReceiptLedgerError ReceiptLedgerCatalogSnapshot := do
  refuseIf (wordBound ≤ parts.keys.length) (.corrupt "receipt catalog count does not fit telemetry")
  refuseIf (parts.liveCount ≠ parts.keys.length)
    (.corrupt "receipt catalog telemetry count contradicts its keys")
  refuseIf (wordBound ≤ parts.tombstones.length) (.corrupt "receipt tombstone count does not fit telemetry")
  refuseIf ((∃ receipt ∈ parts.tombstones, maxAcknowledgedTombstoneBytes < receipt.encodedBytes)
      ∨ parts.observedTombstoneBytes ≠ some parts.tombstoneBytes)
    (.corrupt "receipt catalog telemetry contradicts its tombstone pool")
  let indexedCount ← okOr (.corrupt "receipt catalog telemetry count overflow")
    (checkedAdd wordBound parts.liveCount parts.tombstones.length)
  refuseIf (parts.invocationIndex.length ≠ indexedCount ∨ parts.reservedTaskIndex.length ≠ indexedCount)
    (.corrupt "receipt catalog telemetry indexes contradict its keys")
  let seen ← parts.allKeys.foldlM SealedKeys.insert {}
  refuseIf (sameExactReceiptKeySet seen.exactKeys parts.invocationIndex = false
      ∨ sameExactReceiptKeySet seen.exactKeys parts.reservedTaskIndex = false)
    (.corrupt "receipt catalog telemetry indexes contradict its keys")
  refuseIf (checkedAdd wordBound parts.actualBytes parts.reservedResultBytes = none)
    (.corrupt "receipt catalog telemetry byte accounting overflowed")
  pure ⟨parts⟩

end ReceiptLedgerCatalogSnapshotParts

namespace SealedKeys

/-- What has been collected from the keys: none of them was seen twice, in any of the three senses. -/
structure Collected (seen : SealedKeys) (keys : List ReceiptKey) : Prop where
  lookup_iff : ∀ digest key,
    seen.exactKeys.lookup digest = some key ↔ key ∈ keys ∧ receiptKeyDigest key = digest
  size_eq : seen.exactKeys.size = keys.length
  mem_invocationIds : ∀ id, id ∈ seen.invocationIds ↔ id ∈ keys.map (·.invocationId)
  mem_reservedTaskIds : ∀ id, id ∈ seen.reservedTaskIds ↔ id ∈ keys.map (·.reservedTaskId)
  nodup_keys : keys.Nodup
  nodup_invocationIds : (keys.map (·.invocationId)).Nodup
  nodup_reservedTaskIds : (keys.map (·.reservedTaskId)).Nodup

theorem Collected.nil : Collected {} [] where
  lookup_iff := by simp
  size_eq := rfl
  mem_invocationIds := by simp
  mem_reservedTaskIds := by simp
  nodup_keys := nodup_nil
  nodup_invocationIds := nodup_nil
  nodup_reservedTaskIds := nodup_nil

variable {seen seen' : SealedKeys} {keys : List ReceiptKey} {key : ReceiptKey} {observed : List ReceiptKey}

theorem insert_ok (h : seen.insert key = .ok seen') :
    seen.exactKeys.lookup (receiptKeyDigest key) = none ∧ key.invocationId ∉ seen.invocationIds
      ∧ key.reservedTaskId ∉ seen.reservedTaskIds
      ∧ seen' = ⟨seen.exactKeys.insert (receiptKeyDigest key) key,
        Insert.insert key.invocationId seen.invocationIds, Insert.insert key.reservedTaskId seen.reservedTaskIds⟩ := by
  simp only [insert, bind_eq_ok, refuseIf_eq_ok, exists_unit, not_not] at h
  obtain ⟨hdigest, hinvocation, htask, hseen⟩ := h
  cases hseen
  exact ⟨hdigest, hinvocation, htask, rfl⟩

theorem Collected.insert (hseen : seen.Collected keys) (h : seen.insert key = .ok seen') :
    seen'.Collected (keys ++ [key]) := by
  obtain ⟨hdigest, hinvocation, htask, rfl⟩ := insert_ok h
  rw [hseen.mem_invocationIds] at hinvocation
  rw [hseen.mem_reservedTaskIds] at htask
  have hnew : key ∉ keys := by
    intro hmem
    rw [(hseen.lookup_iff _ _).mpr ⟨hmem, rfl⟩] at hdigest
    cases hdigest
  constructor
  · intro digest other
    rw [lookup_insert_ite, mem_append, mem_singleton]
    by_cases heq : digest = receiptKeyDigest key
    · have hnone : ¬(other ∈ keys ∧ receiptKeyDigest other = digest) := by
        rw [← hseen.lookup_iff, heq, hdigest]
        simp
      rw [if_pos heq, Option.some_inj]
      constructor
      · intro hkey
        exact ⟨.inr hkey.symm, hkey ▸ heq.symm⟩
      · intro ⟨hmem, hother⟩
        obtain hmem | rfl := hmem
        · exact absurd ⟨hmem, hother⟩ hnone
        · rfl
    · rw [if_neg heq, hseen.lookup_iff]
      constructor
      · intro ⟨hmem, hother⟩
        exact ⟨.inl hmem, hother⟩
      · intro ⟨hmem, hother⟩
        obtain hmem | rfl := hmem
        · exact ⟨hmem, hother⟩
        · exact absurd hother.symm heq
  · rw [size_insert_of_absent hdigest, hseen.size_eq, length_append]
    rfl
  · intro id
    simp only [Finset.mem_insert, hseen.mem_invocationIds, map_append, mem_append, map_cons,
      map_nil, mem_singleton, or_comm]
  · intro id
    simp only [Finset.mem_insert, hseen.mem_reservedTaskIds, map_append, mem_append, map_cons,
      map_nil, mem_singleton, or_comm]
  · exact concat_eq_append ▸ hseen.nodup_keys.concat hnew
  · rw [map_append]
    exact concat_eq_append ▸ hseen.nodup_invocationIds.concat hinvocation
  · rw [map_append]
    exact concat_eq_append ▸ hseen.nodup_reservedTaskIds.concat htask

theorem Collected.foldlM (rest : List ReceiptKey) (hseen : seen.Collected keys)
    (h : rest.foldlM SealedKeys.insert seen = .ok seen') : seen'.Collected (keys ++ rest) := by
  induction rest generalizing seen keys with
  | nil =>
    cases h
    rwa [append_nil]
  | cons key rest ih =>
    rw [foldlM_cons, bind_eq_ok] at h
    obtain ⟨next, hinsert, hrest⟩ := h
    have hrun := ih (hseen.insert hinsert) hrest
    rwa [append_assoc, singleton_append] at hrun

/-- The index has as many keys as were collected, and no other. -/
theorem Collected.sameExactReceiptKeySet_iff (hseen : seen.Collected keys) :
    sameExactReceiptKeySet seen.exactKeys observed = true ↔ observed.length = keys.length ∧ observed ⊆ keys := by
  simp only [sameExactReceiptKeySet, hseen.size_eq, Bool.and_eq_true, decide_eq_true_eq, all_eq_true,
    Option.any_eq_true, hseen.lookup_iff, subset_def]
  constructor
  · intro ⟨hlength, hall⟩
    have hmem : ∀ key ∈ observed, key ∈ keys := by
      intro key hkey
      obtain ⟨candidate, ⟨hcandidate, _⟩, heq⟩ := hall key hkey
      exact heq ▸ hcandidate
    exact ⟨hlength, fun {key} hkey => hmem key hkey⟩
  · intro ⟨hlength, hall⟩
    exact ⟨hlength, fun key hkey => ⟨key, ⟨hall hkey, rfl⟩, rfl⟩⟩

/-- Such an index is a permutation exactly when it repeats no key. -/
theorem Collected.perm_iff_nodup (hseen : seen.Collected keys)
    (h : sameExactReceiptKeySet seen.exactKeys observed = true) : observed.Perm keys ↔ observed.Nodup := by
  obtain ⟨hlength, hsubset⟩ := hseen.sameExactReceiptKeySet_iff.mp h
  constructor
  · intro hperm
    exact hperm.nodup_iff.mpr hseen.nodup_keys
  · intro hnodup
    exact (hnodup.subperm hsubset).perm_of_length_le hlength.ge

end SealedKeys

namespace ReceiptLedgerCatalogSnapshotParts

variable {parts : ReceiptLedgerCatalogSnapshotParts} {snapshot : ReceiptLedgerCatalogSnapshot}

/-- The snapshot says of the catalog what a reader takes from it. -/
structure Exact (parts : ReceiptLedgerCatalogSnapshotParts) : Prop where
  invocationIndex_perm : parts.invocationIndex.Perm parts.allKeys
  reservedTaskIndex_perm : parts.reservedTaskIndex.Perm parts.allKeys
  nodup_invocationIds : (parts.allKeys.map (·.invocationId)).Nodup
  nodup_reservedTaskIds : (parts.allKeys.map (·.reservedTaskId)).Nodup
  liveCount_eq : parts.liveCount = parts.keys.length
  tombstoneBytes_eq : parts.tombstoneBytes = (parts.tombstones.map (·.encodedBytes)).sum

/-- What a sealed snapshot has passed. -/
structure Accepted (parts : ReceiptLedgerCatalogSnapshotParts) (seen : SealedKeys) : Prop where
  liveCount_eq : parts.liveCount = parts.keys.length
  tombstoneBytes_eq : parts.tombstoneBytes = (parts.tombstones.map (·.encodedBytes)).sum
  collected : seen.Collected parts.allKeys
  invocationIndex_same : sameExactReceiptKeySet seen.exactKeys parts.invocationIndex = true
  reservedTaskIndex_same : sameExactReceiptKeySet seen.exactKeys parts.reservedTaskIndex = true

theorem sealSnapshot_ok (h : parts.sealSnapshot = .ok snapshot) : ∃ seen, parts.Accepted seen := by
  simp only [sealSnapshot, bind_eq_ok, refuseIf_eq_ok, exists_unit, okOr_eq_ok, not_not, not_or,
    Bool.not_eq_false] at h
  obtain ⟨-, hlive, -, ⟨-, hbytes⟩, _, -, -, seen, hseen, ⟨hinvocation, htask⟩, -⟩ := h
  have htotal := foldlM_checkedAdd hbytes
  rw [Nat.zero_add] at htotal
  exact ⟨seen, hlive, htotal, .foldlM parts.allKeys .nil hseen, hinvocation, htask⟩

end ReceiptLedgerCatalogSnapshotParts

end

attribute [local instance] Unica.Task.plainCodec

/-- Two live receipts, each listed once in the Task index and in this order in the invocation index. -/
def twoReceipts (invocationIndex : List ReceiptKey) : ReceiptLedgerCatalogSnapshotParts where
  generation := 1
  keys := [numberedKey 1, numberedKey 2]
  tombstones := []
  invocationIndex := invocationIndex
  reservedTaskIndex := [numberedKey 1, numberedKey 2]
  liveCount := 2
  actualBytes := 200
  reservedResultBytes := 0
  tombstoneBytes := 0

end Unica.Receipt
