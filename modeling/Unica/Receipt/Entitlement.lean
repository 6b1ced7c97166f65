import Unica.Receipt.CatalogInvariant

/-!
# The byte entitlement of an admitted receipt

An admitted receipt is charged the same number of bytes in every lifecycle it
passes through: what its encoding does not use stays reserved. So finishing a
receipt never asks the live counters for room that is not there.
-/

namespace Unica.Receipt

open Lib CatalogEntry Finmap CatalogCommit GuardedStep

namespace CatalogEntry

/-- The live bytes an entry is charged. -/
def charge (e : CatalogEntry) : Nat := e.liveActualBytes + e.reservedResultBytes

variable {e : CatalogEntry}

theorem isTombstone_of_holdsEntitlement
    (h : e.record.lifecycle.holdsEntitlement = true) : e.isTombstone = false := by
  unfold isTombstone
  cases hl : e.record.lifecycle <;> simp_all [StoredActiveLifecycle.holdsEntitlement,
    StoredActiveLifecycle.isTombstone]

theorem encodedBytes_add_reserved (h : e.record.lifecycle.holdsEntitlement = true) :
    e.encodedBytes + e.reservedResultBytes = maxReceiptEntitlementBytes := by
  have hle := e.encoded_le
  simp only [reservedResultBytes, h, if_true]
  omega

theorem charge_of_holdsEntitlement
    (h : e.record.lifecycle.holdsEntitlement = true) : e.charge = maxReceiptEntitlementBytes := by
  rw [charge, liveActualBytes, isTombstone_of_holdsEntitlement h]
  exact encodedBytes_add_reserved h

theorem charge_le (e : CatalogEntry) : e.charge ≤ maxReceiptEntitlementBytes := by
  cases hh : e.record.lifecycle.holdsEntitlement
  · have hle := e.encoded_le
    simp only [charge, liveActualBytes, reservedResultBytes, hh]
    split
    · simp
    · simpa using hle
  · exact (charge_of_holdsEntitlement hh).le

/-- A tombstone is counted once and weighs at least a byte. -/
theorem tombstoneCount_le_bytes (e : CatalogEntry) : e.tombstoneCount ≤ e.tombstoneBytes := by
  have hpos := e.encoded_pos
  unfold tombstoneCount tombstoneBytes
  split <;> omega

end CatalogEntry

namespace ReceiptCatalog

variable {c : ReceiptCatalog} {e r : CatalogEntry}

theorem Exact.tombstoneRecords_le (hc : c.Exact) : c.tombstoneRecords ≤ c.tombstoneBytes := by
  rw [hc.tombstones, hc.tombstone]
  exact Table.total_mono tombstoneCount_le_bytes

/-- An entitled receipt fits its successor whatever else the catalog holds; only the bytes of
a new tombstone have to fit their own counter. -/
theorem Represents.replaceAccepted (hc : c.Represents) (hh : c.holds e.record.keyDigest e = true)
    (he : e.record.lifecycle.holdsEntitlement = true) (hd : r.record.keyDigest = e.record.keyDigest)
    (hk : r.record.key = e.record.key)
    (hs : c.sequenceTaken r.record.mutationSequence (some e.record.keyDigest) = false)
    (ht : c.tombstoneBytes + r.tombstoneBytes < wordBound) : ReplaceAccepted c e r := by
  have hstored := hc.toExact.lookup_of_holds hh
  obtain ⟨ha, hb, htb, hl, hn⟩ : (remove e).InRange c := by
    simpa [InRange] using inRange_remove hc.toExact (e := e.withoutResultBody) hstored
  have hnot := isTombstone_of_holdsEntitlement he
  have hcharge : e.liveActualBytes + e.reservedResultBytes = maxReceiptEntitlementBytes :=
    charge_of_holdsEntitlement he
  have hcharge' : r.liveActualBytes + r.reservedResultBytes ≤ maxReceiptEntitlementBytes := r.charge_le
  have hfits := hc.fits
  have hlive : e.liveCount = 1 := by simp [liveCount, hnot]
  have hlive' : r.liveCount ≤ 1 := by unfold liveCount; split <;> omega
  have hlt := hc.live_lt
  have hcount := hc.toExact.tombstoneRecords_le
  have hone := r.tombstoneCount_le_bytes
  exact ⟨hh, hd, hk, fun _ => hs, ⟨hl, by omega⟩, ⟨ha, by omega⟩, ⟨hb, by omega⟩, by omega,
    ⟨hn, by omega⟩, ⟨htb, by omega⟩⟩

/-- A replacement refused for want of bytes replaces an entry that holds no entitlement. -/
theorem Represents.not_entitled_of_refused (hc : c.Represents)
    (h : validateCatalogReplace c e r = .error .capacityExceeded) :
    e.record.lifecycle.holdsEntitlement = false := by
  simp only [validateCatalogReplace, bind_eq_error, okOr_eq_error, refuseIf_eq_error, okOr_eq_ok,
    refuseIf_eq_ok, checkedExchange_eq_some, checkedAdd_eq_none, reduceCtorEq, and_false, false_or,
    and_true, Bool.not_eq_false] at h
  obtain ⟨_, hh, _, -, _, -, _, -, _, ⟨ha, -, rfl⟩, _, ⟨hb, -, rfl⟩, hover | ⟨_, -, _, -, _, -, hp⟩⟩ := h
  · cases he : e.record.lifecycle.holdsEntitlement
    · rfl
    · have hcharge : e.liveActualBytes + e.reservedResultBytes = maxReceiptEntitlementBytes :=
        charge_of_holdsEntitlement he
      have hcharge' : r.liveActualBytes + r.reservedResultBytes ≤ maxReceiptEntitlementBytes :=
        r.charge_le
      have hfits := hc.fits
      omega
  · cases hp

end ReceiptCatalog

/-- Removal never asks for bytes. -/
theorem validateCatalogRemove_ne_capacityExceeded (c : ReceiptCatalog) (e : CatalogEntry) :
    validateCatalogRemove c e ≠ .error .capacityExceeded := by
  intro h
  simp only [validateCatalogRemove, bind_eq_error, okOr_eq_error, refuseIf_eq_error, reduceCtorEq,
    and_false, false_or] at h
  obtain ⟨_, -, _, -, _, -, _, -, _, -, _, -, hp⟩ := h
  cases hp

/-- A receipt keeps its entitlement until it is finished, and its bytes never stand in the way
of finishing it: only a tombstone that would overflow the counter of tombstone bytes is refused. -/
theorem entitled_receipt_can_be_finished {c : ReceiptCatalog} (h : ReachableCatalog c) :
    (∀ d e, c.records.lookup d = some e → e.record.lifecycle.holdsEntitlement = true →
      e.encodedBytes + e.reservedResultBytes = maxReceiptEntitlementBytes)
    ∧ (∀ e r : CatalogEntry, c.holds e.record.keyDigest e = true →
      e.record.lifecycle.holdsEntitlement = true →
      (r.record.lifecycle.holdsEntitlement = true ∨ r.isTombstone = true) →
      r.record.keyDigest = e.record.keyDigest → r.record.key = e.record.key →
      c.sequenceTaken r.record.mutationSequence (some e.record.keyDigest) = false →
      (r.isTombstone = true → c.tombstoneBytes + r.encodedBytes < wordBound) →
      validateCatalogReplace c e r = .ok ())
    ∧ (∀ e r : CatalogEntry, validateCatalogReplace c e r = .error .capacityExceeded →
      e.record.lifecycle.holdsEntitlement = false)
    ∧ (∀ e : CatalogEntry, validateCatalogRemove c e ≠ .error .capacityExceeded) := by
  have hc := h.represents
  refine ⟨fun d e _ he => encodedBytes_add_reserved he, ?_,
    fun e r => hc.not_entitled_of_refused, validateCatalogRemove_ne_capacityExceeded c⟩
  intro e r hh he _ hd hk hs ht
  refine validateCatalogReplace_ok.mpr (hc.replaceAccepted hh he hd hk hs ?_)
  unfold tombstoneBytes
  split
  · exact ht ‹_›
  · exact hc.tombstone_lt

/-- A direct terminal waiting for its acknowledgement. -/
def unackedDirect : CatalogEntry where
  record :=
    { schemaVersion := receiptRecordSchemaVersion
      mutationSequence := 1
      recordVersion := ⟨2, by decide, by decide⟩
      key := numberedKey 0
      keyDigest := 0
      lifecycle := .directTerminalUnacked ⟨0, 0, by decide, by decide⟩ 0 0 none }
  encodedBytes := maxCancelReservedRecordBytes
  encoded_pos := by decide
  encoded_le := by decide

/-- One unacknowledged receipt among `n` tombstones. -/
def crowdedCatalog : Nat → ReceiptCatalog
  | 0 => commitCatalogInsert .empty unackedDirect
  | n + 1 => commitCatalogInsert (crowdedCatalog n) (numberedTombstone (n + 1))

/-- The crowded catalog is reachable as long as its tombstones fit their counter. -/
theorem crowdedCatalog_reachable (n : Nat) (hn : n < 2 ^ 55) : ReachableCatalog (crowdedCatalog n)
    ∧ (crowdedCatalog n).tombstoneBytes = maxAcknowledgedTombstoneBytes * n
    ∧ (crowdedCatalog n).tombstoneRecords = n
    ∧ (crowdedCatalog n).liveRecords = 1
    ∧ (crowdedCatalog n).actualBytes = maxCancelReservedRecordBytes
    ∧ (crowdedCatalog n).reservedResultBytes
        = maxReceiptEntitlementBytes - maxCancelReservedRecordBytes
    ∧ (crowdedCatalog n).records.lookup 0 = some unackedDirect
    ∧ (∀ d e, (crowdedCatalog n).records.lookup d = some e → d ≠ 0 → e.isTombstone = true)
    ∧ ∀ m, n < m → (crowdedCatalog n).records.lookup m = none
        ∧ (crowdedCatalog n).invocationIndex.lookup m = none
        ∧ (crowdedCatalog n).reservedTaskIndex.lookup m = none := by
  induction n with
  | zero =>
    have hg : (CatalogStep.insert unackedDirect false).Guarded .empty := rfl
    refine ⟨.single (step hg), rfl, rfl, rfl, rfl, rfl, rfl, fun d e hl hd => ?_,
      fun m hm => ?_⟩
    · cases (lookup_insert_of_ne _ hd).symm.trans hl
    have hne : m ≠ 0 := by omega
    refine ⟨?_, ?_, ?_⟩ <;> exact (lookup_insert_of_ne _ hne).trans (by rfl)
  | succ n ih =>
    obtain ⟨hreach, hbytes, hcount, hlive, hactual, hreserved, hzero, hrest, habove⟩ := ih (by omega)
    obtain ⟨hd, hi, ht⟩ := habove (n + 1) (by omega)
    have hacc : InsertAccepted (crowdedCatalog n) (numberedTombstone (n + 1)) := by
      have hlive₀ : (numberedTombstone (n + 1)).liveActualBytes = 0 := rfl
      have hreserved₀ : (numberedTombstone (n + 1)).reservedResultBytes = 0 := rfl
      have hbytes₁ : (numberedTombstone (n + 1)).tombstoneBytes = 512 := rfl
      have hcount₀ : (numberedTombstone (n + 1)).liveCount = 0 := rfl
      have hcount₁ : (numberedTombstone (n + 1)).tombstoneCount = 1 := rfl
      refine ⟨hd, hi, ht, (fun hf => nomatch hf), ⟨?_, ?_, ?_, ?_, ?_⟩, ?_⟩
      · rw [hactual, hlive₀]; decide
      · rw [hreserved, hreserved₀]; decide
      · rw [hbytes]
        simp only [maxAcknowledgedTombstoneBytes, wordBound]; omega
      · rw [hlive, hcount₀]; decide
      · rw [hcount]
        simp only [wordBound]; omega
      · rw [hactual, hreserved, hlive₀, hreserved₀]; decide
    have hg : (CatalogStep.insert (numberedTombstone (n + 1)) false).Guarded (crowdedCatalog n) :=
      validateCatalogInsert_ok.mpr hacc
    have heq := commitCatalogInsert_eq hacc.inRange
    refine ⟨hreach.tail (step hg), ?_⟩
    rw [crowdedCatalog, heq]
    refine ⟨?_, ?_, hlive, hactual, hreserved, ?_, fun d e hl hd => ?_, fun m hm => ?_⟩
    · simp only [hbytes]
      exact (Nat.mul_succ _ _).symm
    · simp only [hcount]
      rfl
    · exact (lookup_insert_of_ne _ (show (0 : Nat) ≠ n + 1 by omega)).trans hzero
    · by_cases hnew : d = n + 1
      · subst hnew
        cases (lookup_insert _).symm.trans hl
        rfl
      · exact hrest d e ((lookup_insert_of_ne _ hnew).symm.trans hl) hd
    · have hne : m ≠ n + 1 := by omega
      obtain ⟨h₁, h₂, h₃⟩ := habove m (by omega)
      exact ⟨(lookup_insert_of_ne _ hne).trans h₁,
        (lookup_insert_of_ne _ hne).trans h₂, (lookup_insert_of_ne _ hne).trans h₃⟩

/-- The tombstone of the waiting receipt is refused once the tombstone bytes are used up: the
receipt keeps its entitlement and cannot be acknowledged. -/
theorem acknowledgement_refused_among_tombstones : ReachableCatalog (crowdedCatalog (2 ^ 55 - 1))
    ∧ (crowdedCatalog (2 ^ 55 - 1)).records.lookup 0 = some unackedDirect
    ∧ unackedDirect.record.lifecycle.holdsEntitlement = true
    ∧ (numberedTombstone 0).isTombstone = true
    ∧ (numberedTombstone 0).record.keyDigest = unackedDirect.record.keyDigest
    ∧ (numberedTombstone 0).record.key = unackedDirect.record.key
    ∧ (crowdedCatalog (2 ^ 55 - 1)).sequenceTaken (numberedTombstone 0).record.mutationSequence
      (some unackedDirect.record.keyDigest) = false
    ∧ validateCatalogReplace (crowdedCatalog (2 ^ 55 - 1)) unackedDirect (numberedTombstone 0)
      = .error (.corrupt "receipt catalog tombstone-byte accounting underflowed") := by
  obtain ⟨hreach, hbytes, hcount, hlive, hactual, hreserved, hzero, hrest, -⟩ :=
    crowdedCatalog_reachable (2 ^ 55 - 1) (by decide)
  refine ⟨hreach, hzero, rfl, rfl, rfl, rfl, ?_, ?_⟩
  · refine Bool.eq_false_iff.mpr fun htaken => ?_
    obtain ⟨d, e, hl, hd, htomb, -⟩ := Table.existsValue_iff.mp htaken
    rw [hrest d e hl (fun h0 => hd (h0 ▸ rfl))] at htomb
    cases htomb
  generalize crowdedCatalog (2 ^ 55 - 1) = c at *
  have hholds : c.holds unackedDirect.record.keyDigest unackedDirect = true :=
    ReceiptCatalog.holds_iff.mpr ⟨unackedDirect, hzero, by decide⟩
  have hidentity : ¬ ((numberedTombstone 0).record.keyDigest ≠ unackedDirect.record.keyDigest
      ∨ (numberedTombstone 0).record.key ≠ unackedDirect.record.key) := by decide
  have hseq : ¬ ((numberedTombstone 0).isTombstone = false
      ∧ c.sequenceTaken (numberedTombstone 0).record.mutationSequence
        (some unackedDirect.record.keyDigest) = true) := fun h => nomatch h.1
  simp only [validateCatalogReplace, refuseIf, hholds, hidentity, hseq, if_false, Bool.true_eq_false,
    hlive, hactual, hreserved, hcount, hbytes]
  decide

theorem entitled_receipt_can_be_finished_alone : ReachableCatalog (crowdedCatalog 0)
    ∧ validateCatalogReplace (crowdedCatalog 0) unackedDirect (numberedTombstone 0) = .ok () := by
  have hreach := (crowdedCatalog_reachable 0 (by decide)).1
  exact ⟨hreach, (entitled_receipt_can_be_finished hreach).2.1 unackedDirect (numberedTombstone 0)
    rfl rfl (.inr rfl) rfl rfl rfl (fun _ => by decide)⟩

end Unica.Receipt
