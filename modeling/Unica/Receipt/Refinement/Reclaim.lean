import Unica.Receipt.CommitBatch

/-!
# Reclaiming follows the protocol

A reclaimer removes the receipt it was asked for through the witness of its
lifecycle and touches no other.
-/

namespace Unica.Receipt

open Lib Lib.Prog Lib.Protocol List Option Finmap

variable {V : Verdict → Prop} {w : World} {S : ReceiptKeyDigest → Prop} {at' : EpochMs}
  {digests : List ReceiptKeyDigest}

/-- Retention of the receipt is over, and its identity may be taken. -/
def entryIsExpiredIdentity (e : CatalogEntry) (at' : EpochMs) : Bool :=
  entryIsExpiredTombstone e at' || entryIsExpiredDirectTerminal e at'

theorem reclaimCandidate_observes {named : Option ReceiptKeyDigest} {mismatch : ReceiptLedgerError} :
    Observes Quiet V (reclaimCandidate named at' mismatch) w fun digests => digests = named.toList
      ∧ ∀ digest, named = some digest → ∃ e, w.catalog.records.lookup digest = some e
        ∧ entryIsExpiredIdentity e at' = true := by
  cases named with
  | none => exact .pure ⟨rfl, nofun⟩
  | some digest =>
    refine .get_bind ?_
    refine .bind (orLatch_observes _) fun expired hexpired => ?_
    obtain ⟨e, he, heq⟩ := bind_eq_ok.mp hexpired
    cases expired with
    | false => exact rejectBeforeMutation_observes mismatch
    | true =>
      refine .pure ⟨rfl, fun d hd => ?_⟩
      obtain rfl := some.inj hd
      exact ⟨e, okOr_eq_ok.mp he, Except.ok.inj heq⟩

/-- The entries of a group are those the catalog has under its digests. -/
theorem digests_of_lookupExpired {c : ReceiptCatalog}
    (hkeyed : ∀ {d e}, c.records.lookup d = some e → e.record.keyDigest = d) {entries : List CatalogEntry}
    (h : lookupExpired c digests = .ok entries) : entries.map (fun e => e.record.keyDigest) = digests := by
  induction digests generalizing entries with
  | nil =>
    cases h
    rfl
  | cons digest rest ih =>
    simp only [lookupExpired, bind_eq_ok, okOr_eq_ok] at h
    obtain ⟨entry, hentry, others, hothers, hentries⟩ := h
    cases hentries
    rw [map_cons, hkeyed hentry, ih hothers]

/-- A group is all that an envelope backs, some receipts, and each an expired tombstone. -/
theorem bulkGroups_spec {c : ReceiptCatalog} {name : BatchName} (h : (name, digests) ∈ bulkGroups c at') :
    (∀ digest, digest ∈ digests ↔ c.batchBacking.lookup digest = some name) ∧ (∃ digest, digest ∈ digests)
      ∧ ∀ digest ∈ digests, ∃ e, c.records.lookup digest = some e ∧ entryIsExpiredTombstone e at' = true := by
  obtain ⟨hmem, hall⟩ := mem_filter.mp h
  obtain ⟨_, hname, hgroup⟩ := mem_map.mp hmem
  obtain ⟨rfl, rfl⟩ := Prod.mk.inj hgroup
  rw [backingNames, mem_insertionSort, mem_dedup, mem_filterMap] at hname
  obtain ⟨digest, hdigest, hbacking⟩ := hname
  refine ⟨fun d => ?_, ⟨digest, mem_filter.mpr ⟨hdigest, decide_eq_true hbacking⟩⟩, fun d hd => ?_⟩
  · rw [backedDigests, mem_filter, decide_eq_true_eq, Table.mem_sortedKeys]
    exact ⟨fun hd => hd.2, fun hd => ⟨⟨_, hd⟩, hd⟩⟩
  · exact (any_eq_true _ _).mp (all_eq_true.mp hall d hd)

variable [ReceiptCodec] {digest : ReceiptKeyDigest}

namespace Change

/-- The change is about the receipt of a digest in `S`. -/
def Touches (S : ReceiptKeyDigest → Prop) : Change → Prop
  | write _ r => S r.record.keyDigest
  | remove e _ => S e.record.keyDigest
  | materialize r => S r.record.keyDigest

/-- The changes of a single-row reclamation. -/
def Reclaims (S : ReceiptKeyDigest → Prop) : Change → Prop
  | write .. => False
  | c => c.Touches S

theorem Reclaims.touches {c : Change} (h : c.Reclaims S) : c.Touches S := by
  cases c <;> first | exact h | exact h.elim

end Change

open Change

/-- A witness carries the sequence and the identity it was built with. -/
def ExpiryReclaimer.Builds (p : ExpiryReclaimer) : Prop :=
  ∀ e at' n r, p.build e at' n = .ok r →
    r.mutationSequence = n ∧ r.key = e.record.key ∧ r.keyDigest = e.record.keyDigest

theorem tombstoneReclaimer_builds : tombstoneReclaimer.Builds := by
  intro e at' n r h
  simp only [tombstoneReclaimer, buildExpiredTombstoneDeletionRecord] at h
  split at h
  case h_1 => cases h; exact ⟨rfl, rfl, rfl⟩
  case h_2 => cases h

theorem directTerminalReclaimer_builds : directTerminalReclaimer.Builds := by
  intro e at' n r h
  simp only [directTerminalReclaimer, buildExpiredDirectDeletionRecord] at h
  split at h
  case h_1 =>
    obtain ⟨version, -, hr⟩ := bind_eq_ok.mp h
    cases hr
    exact ⟨rfl, rfl, rfl⟩
  case h_2 => cases h

theorem taskReceiptTerminalReclaimer_builds : taskReceiptTerminalReclaimer.Builds := by
  intro e at' n r h
  simp only [taskReceiptTerminalReclaimer, buildExpiredTaskReceiptDeletionRecord] at h
  split at h
  case h_1 =>
    obtain ⟨version, -, hr⟩ := bind_eq_ok.mp h
    cases hr
    exact ⟨rfl, rfl, rfl⟩
  case h_2 => cases h

/-- The catalog keeps every receipt under its own digest. -/
def World.Keyed (w : World) : Prop :=
  ∀ {d e}, w.catalog.records.lookup d = some e → e.record.keyDigest = d

omit [ReceiptCodec] in
theorem World.Keyed.catalogued (h : w.Keyed) {e : CatalogEntry}
    (he : w.Catalogues digest e) : e.record.keyDigest = digest := by
  obtain ⟨stored, hstored, -, hsame⟩ := he.lookup
  have hdigest : stored.record.withoutResultBody.keyDigest = e.record.withoutResultBody.keyDigest :=
    congrArg StoredActiveReceipt.keyDigest hsame
  exact hdigest.symm.trans (h hstored)

/-- One receipt is gone, the one under the digest. -/
def Reclaimed (digest : ReceiptKeyDigest) (w w' : World) : Prop :=
  ∃ d, w'.catalog.records = w.catalog.records.erase d ∧ (w.Keyed → d = digest)

omit [ReceiptCodec] in
theorem Reclaimed.keyed {w' : World} (h : Reclaimed digest w w') (hw : w.Keyed) : w'.Keyed := by
  intro d e he
  obtain ⟨gone, hrecords, -⟩ := h
  rw [hrecords] at he
  have hne : d ≠ gone := by
    rintro rfl
    rw [lookup_erase] at he
    cases he
  rw [lookup_erase_ne hne] at he
  exact hw he

theorem reclaim_performs {p : ExpiryReclaimer} (hbuilds : p.Builds)
    (hdigest : S digest) (hkeyed : (∀ d, S d) ∨ w.Keyed) :
    (protocol (Reclaims S)).Performs V (p.reclaim digest at') w
      fun _ w' => Reclaimed digest w w' := by
  refine .observe checkDeadline_observes fun _ _ => ?_
  refine .get_bind ?_
  refine .observe (compute_observes _) fun expected _ => ?_
  refine .observe (readEntryUnderWriterLock_observes digest) fun entry hentry => ?_
  cases entry with
  | none => exact .throw (.refl w)
  | some persisted =>
    have hcatalogued := hentry.2.2 persisted rfl
    have hS := hkeyed.elim (fun hall => hall _) fun hk => (congrArg S (hk.catalogued hcatalogued)).mpr hdigest
    refine .observe (refuseWithLatch_observes _ _) fun _ _ => ?_
    refine .observe (expiresAt_observes p persisted) fun expires _ => ?_
    refine .observe (refuseWithLatch_observes _ _) fun _ _ => ?_
    have hrest : ∀ w₁, w₁.unavailable = false → w₁.catalog.records = w.catalog.records →
        (protocol (Reclaims S)).Performs V (do
          let sequence ← nextMutationSequence
          let record ← compute (p.build persisted at' sequence)
          let witness ← compute (serializeReservedRecord record maxCancelReservedRecordBytes)
          let w ← get
          orLatch (validateCatalogRemove w.catalog persisted)
          commitRemoval persisted witness) w₁ fun _ w' => Reclaimed digest w w' := by
      intro w₁ hfree hrecords
      refine .observe nextMutationSequence_observes fun sequence hticks => ?_
      refine .observe (compute_observes _) fun record hrecord => ?_
      refine .observe (compute_observes _) fun witness hwitness => ?_
      refine .get_bind ?_
      refine .observe (orLatch_observes _) fun _ hremove => ?_
      obtain ⟨rfl, -⟩ := serializeReservedRecord_ok hwitness
      obtain ⟨rfl, hkey, hdigest⟩ := hbuilds _ _ _ _ hrecord
      refine (Performs.of_commits (commitRemoval_commits hS
        ⟨hfree, hticks, hremove, hkey, hdigest⟩)).imp ?_
      rintro _ _ rfl
      refine ⟨persisted.record.keyDigest, ?_, fun hk => hk.catalogued hcatalogued⟩
      rw [remove_catalog, ← hrecords, commitCatalogRemove]
    split
    case isTrue =>
      refine .bind (materialize_performs hentry.1 fun r hr => ?_) ?_
      · exact (congrArg S hr).mpr hdigest
      · rintro _ w₁ (⟨rfl, -⟩ | ⟨r, -, -, rfl⟩)
        · exact hrest _ hentry.1 rfl
        · exact hrest _ hentry.1 rfl
    case isFalse => exact hrest w hentry.1 rfl

/-- Every reclaimer of the table builds its witness. -/
def ReclaimerTable (reclaimerOf : StoredActiveLifecycle → Option ExpiryReclaimer) : Prop :=
  ∀ lifecycle p, reclaimerOf lifecycle = some p → p.Builds

theorem identityReclaimerOf_table : ReclaimerTable identityReclaimerOf := by
  intro lifecycle p h
  unfold identityReclaimerOf at h
  split at h
  · cases h; exact tombstoneReclaimer_builds
  · cases h; exact directTerminalReclaimer_builds
  · cases h

theorem expiryReclaimerOf_table : ReclaimerTable expiryReclaimerOf := by
  intro lifecycle p h
  unfold expiryReclaimerOf at h
  split at h
  · cases h; exact tombstoneReclaimer_builds
  · cases h; exact directTerminalReclaimer_builds
  · cases h; exact taskReceiptTerminalReclaimer_builds
  · cases h

theorem reclaimListed_performs {reclaimerOf : StoredActiveLifecycle → Option ExpiryReclaimer}
    (htable : ReclaimerTable reclaimerOf) {disappeared changed : String}
    (digests : List ReceiptKeyDigest) (hdigests : ∀ d ∈ digests, S d) (hkeyed : (∀ d, S d) ∨ w.Keyed) :
    (protocol (Reclaims S)).Performs V
      (reclaimListed reclaimerOf disappeared changed at' digests) w fun _ w' => w.Keyed →
        w'.catalog.records = digests.foldl (fun records d => records.erase d) w.catalog.records := by
  induction digests generalizing w with
  | nil => exact .pure fun _ => rfl
  | cons digest rest ih =>
    refine .get_bind ?_
    refine .observe (orLatch_observes _) fun entry _ => ?_
    refine .observe (orLatch_observes _) fun reclaimer hreclaimer => ?_
    have hbuilds := htable _ _ (okOr_eq_ok.mp hreclaimer)
    refine .bind
      (reclaim_performs hbuilds (hdigests digest mem_cons_self) hkeyed) fun _ w₁ hw₁ => ?_
    refine (ih (fun d hd => hdigests d (mem_cons_of_mem _ hd))
      (hkeyed.imp_right hw₁.keyed)).imp fun _ w₂ hw₂ hk => ?_
    obtain ⟨d, hrecords, hd⟩ := hw₁
    rw [hw₂ (Reclaimed.keyed ⟨d, hrecords, hd⟩ hk), hrecords, hd hk, foldl_cons]

end Unica.Receipt
