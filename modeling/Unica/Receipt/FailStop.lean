import Unica.Receipt.Refinement.Reclaim
import Unica.Receipt.Operations.Admission
import Unica.Task.Record

/-!
# Bulk reclamation and the files behind the catalog

A receipt is backed when the file the catalog names for it, its own row or an envelope, holds it.
The single-row reclaimers latch the store where they cannot keep that. The bulk reclamation removes
an envelope, and whatever fails behind the removal is returned as it is, with the receipts of the
envelope still in the catalog of a store that stays open.
-/

namespace Unica.Receipt

open Lib Lib.Prog Finmap Disk World Option Change

variable [ReceiptCodec] {V : Verdict → Prop} {w w' : World} {at' : EpochMs}
  {envelope : List StoredReceiptBatchRow} {e : CatalogEntry}

/-- A row of the receipt is on the disk, in a file of its own or in an envelope. -/
def Disk.Contains (d : Disk) (digest : ReceiptKeyDigest) : Prop :=
  (∃ row, d.rows.lookup digest = some row) ∨
    ∃ name envelope rows r, d.batches.lookup name = some envelope ∧ decodeReceiptBatch envelope = .ok rows
      ∧ r ∈ rows ∧ r.record.keyDigest = digest

namespace World

/-- The file the catalog names for the receipt holds it. -/
def Backs (w : World) (digest : ReceiptKeyDigest) (e : CatalogEntry) : Prop :=
  match w.catalog.batchBacking.lookup digest with
  | none => ∃ r : EncodedRecord, w.disk.rows.lookup digest = some r.row ∧ r.entry.same e
  | some name => ∃ envelope rows r, w.disk.batches.lookup name = some envelope
      ∧ decodeReceiptBatch envelope = .ok rows ∧ r ∈ rows ∧ r.record.keyDigest = digest ∧ r.entry.same e

def Backed (w : World) : Prop :=
  ∀ digest e, w.catalog.records.lookup digest = some e → w.Backs digest e

variable {digest : ReceiptKeyDigest}

theorem Backs.contains (h : w.Backs digest e) : w.disk.Contains digest := by
  unfold Backs at h
  split at h
  · obtain ⟨r, hr, -⟩ := h
    exact .inl ⟨_, hr⟩
  · obtain ⟨envelope, rows, r, henvelope, hrows, hr, hdigest, -⟩ := h
    exact .inr ⟨_, envelope, rows, r, henvelope, hrows, hr, hdigest⟩

/-- What backs a receipt depends on its own row and on the envelopes. -/
theorem Backs.frame (h : w.Backs digest e)
    (hbacking : w'.catalog.batchBacking.lookup digest = w.catalog.batchBacking.lookup digest)
    (hrow : w'.disk.rows.lookup digest = w.disk.rows.lookup digest)
    (hbatches : w'.disk.batches = w.disk.batches) : w'.Backs digest e := by
  unfold Backs at h ⊢
  rw [hbacking, hrow, hbatches]
  exact h

theorem Backed.quiet (h : w.Backed) (hq : Quiet w w') : w'.Backed := by
  intro digest e he
  rw [hq.catalog] at he
  refine (h digest e he).frame ?_ ?_ ?_
  · rw [hq.catalog]
  · rw [hq.disk]
  · rw [hq.disk]

end World

namespace Change

theorem backed_remove {witness : EncodedRecord} (h : w.Backed) : (apply w (.remove e witness)).Backed := by
  intro digest x hx
  rw [remove_catalog, commitCatalogRemove] at hx
  by_cases hdigest : digest = e.record.keyDigest
  · rw [hdigest, lookup_erase] at hx
    cases hx
  · rw [lookup_erase_ne hdigest] at hx
    refine (h digest x hx).frame ?_ ?_ ?_
    · rw [remove_catalog, commitCatalogRemove]
    · rw [remove_disk]
      change ((w.disk.rows.insert e.record.keyDigest witness.row).erase e.record.keyDigest).lookup digest = _
      rw [lookup_erase_ne hdigest, lookup_insert_of_ne _ hdigest]
    · rw [remove_disk]
      rfl

theorem backed_materialize {r : EncodedRecord} (hr : Materializable w r) (h : w.Backed) :
    (apply w (.materialize r)).Backed := by
  intro digest x hx
  change w.catalog.records.lookup digest = some x at hx
  by_cases hdigest : digest = r.record.keyDigest
  · obtain ⟨stored, hstored, hsame⟩ := hr.catalogued
    rw [hdigest, hstored] at hx
    obtain rfl := some.inj hx
    unfold Backs
    rw [hdigest, materialize_catalog, lookup_erase]
    refine ⟨r, ?_, hsame⟩
    exact lookup_insert _
  · refine (h digest x hx).frame ?_ ?_ rfl
    · rw [materialize_catalog, lookup_erase_ne hdigest]
    · exact lookup_insert_of_ne _ hdigest

/-- The changes of the single-row reclaimers. -/
theorem backed_reclaims {S : ReceiptKeyDigest → Prop}
    (hf : (protocol (Reclaims S)).Follows w w') (h : w.Backed) : w'.Backed := by
  induction hf with
  | refl => exact h
  | tail _ hlast ih =>
    obtain ⟨c, hc, henabled, rfl⟩ := hlast
    cases c with
    | remove => exact backed_remove ih
    | materialize => exact backed_materialize henabled ih
    | _ => exact hc.elim

end Change

/-! ## Where the bulk reclamation is exposed -/

/-- A call that returns and leaves the store open has kept every catalogued receipt backed, and has
removed from the catalog what it removed from the disk. -/
def FailStop (w : World) (at' : EpochMs) (o : List Verdict) : Prop :=
  let r := reclaimExpiredTombstonesUnderWriterLock at' w o
  r.outcome ≠ .crashed → r.state.unavailable = false → r.state.Backed ∧
    ∀ digest, w.disk.Contains digest → ¬r.state.disk.Contains digest →
      r.state.catalog.records.lookup digest = none

/-- There is an envelope of expired tombstones only, and nothing stops the reclamation of the first
one before its removal. -/
def Exposed (w : World) (at' : EpochMs) : Prop :=
  ∃ name digests rest entries, bulkGroups w.catalog at' = (name, digests) :: rest
    ∧ lookupExpired w.catalog digests = .ok entries ∧ validateRemovals w.catalog entries = .ok ()
    ∧ w.Clocked ∧ w.clock + entries.length < wordBound

omit [ReceiptCodec] in
/-- Without such an envelope the bulk part does nothing. -/
theorem reclaimBulkGroups_quiet (h : ¬Exposed w at') :
    Ends V (reclaimBulkGroups (bulkGroups w.catalog at')) w (fun _ w' => w' = w) (fun _ w' => Quiet w w')
      fun _ => True := by
  cases hgroups : bulkGroups w.catalog at' with
  | nil => exact .pure rfl
  | cons group rest =>
    refine .bind (P := fun _ _ => False) ?_ fun _ _ h => h.elim
    refine .observe checkDeadline_observes (fun _ _ => ?_) (fun _ _ h => h) fun _ _ => trivial
    refine .get_bind ?_
    refine .observe (compute_observes _) (fun entries hentries => ?_) (fun _ _ h => h) fun _ _ => trivial
    refine .observe (compute_observes _) (fun _ hvalid => ?_) (fun _ _ h => h) fun _ _ => trivial
    refine .observe generationUnderWriterLock_observes (fun generation hgeneration => ?_)
      (fun _ _ h => h) fun _ _ => trivial
    obtain ⟨hclocked, rfl⟩ := hgeneration
    refine .observe (compute_observes _) (fun final hfinal => ?_) (fun _ _ h => h) fun _ _ => trivial
    rw [okOr_eq_ok, checkedAdd_eq_some] at hfinal
    exact (h ⟨_, _, rest, entries, hgroups, hentries, hvalid, hclocked, hfinal.1⟩).elim

theorem failStop_of_not_exposed (hbacked : w.Backed) (h : ¬Exposed w at')
    (o : List Verdict) : FailStop w at' o := by
  have hends : Ends (fun _ => True) (reclaimExpiredTombstonesUnderWriterLock at') w
      (fun _ w' => w'.Backed) (fun _ w' => w'.unavailable = false → w'.Backed) fun _ => True := by
    refine .get_bind ?_
    refine .bind (.mono (reclaimBulkGroups_quiet h) (fun _ _ h => h)
      (fun _ _ hq _ => hbacked.quiet hq) fun _ h => h) ?_
    rintro _ _ rfl
    refine .bind (.mono (reclaimListed_performs expiryReclaimerOf_table _
      (fun _ _ => trivial) (.inl fun _ => trivial)) ?_ ?_ fun _ _ => trivial) fun _ w₁ hw₁ => .pure hw₁
    · exact fun _ w₁ hw₁ => backed_reclaims hw₁.1 hbacked
    · rintro _ w₁ (⟨t, ht, hq⟩ | ⟨hstopped, -⟩) hopen
      · exact (backed_reclaims ht hbacked).quiet hq
      · rw [show w₁.unavailable = true from hstopped] at hopen
        cases hopen
  have hrun := (hends o fun _ _ => trivial).1
  dsimp only [FailStop]
  generalize reclaimExpiredTombstonesUnderWriterLock at' w o = r at hrun ⊢
  intro hcrashed hopen
  have hkept : r.state.Backed := by
    cases hout : r.outcome with
    | ok =>
      rw [hout] at hrun
      exact hrun
    | error =>
      rw [hout] at hrun
      exact hrun hopen
    | crashed => exact absurd hout hcrashed
  refine ⟨hkept, fun digest _ hgone => ?_⟩
  cases hentry : r.state.catalog.records.lookup digest with
  | none => rfl
  | some e => exact absurd (hkept digest e hentry).contains hgone

section Passing

omit [ReceiptCodec]

theorem io_passes (operation : String) : Passes (io operation) w () w := .attempt

theorem checkDeadline_passes : Passes checkDeadline w () w := .attempt

theorem compute_passes {α : Type} {x : Except ReceiptLedgerError α} {a : α} (h : x = .ok a) :
    Passes (compute x) w a w := by
  rw [h]
  exact .pure

theorem verifyNamedAuthority_passes (h : w.store.generationHandleCurrent = true) :
    Passes verifyNamedAuthority w () w := by
  refine .bind (io_passes _) (.bind (io_passes _) (.bind (io_passes _) (.bind (io_passes _) (.get_bind ?_))))
  rw [if_pos h]
  exact .bind (io_passes _) (io_passes _)

theorem generationUnderWriterLock_passes (h : w.Clocked) :
    Passes generationUnderWriterLock w w.clock w := by
  have hverify := verifyNamedAuthority_passes h.handle
  obtain ⟨value, hvalue⟩ := isSome_iff_exists.mp h.recorded
  refine .bind hverify (.bind (io_passes _) (.bind (io_passes _) (.bind (io_passes _) (.get_bind ?_))))
  refine .bind (compute_passes (okOr_eq_ok.mpr hvalue)) (.bind hverify ?_)
  have hclock : w.clock = max value w.store.highwater := by
    simp [clock, hvalue]
  rw [hclock]
  exact .pure

theorem orCleanup_passes {area : StagingArea} {stuck : ReceiptLedgerError} {step : Ledger Unit}
    (h : Passes step w () w') : Passes (orCleanup area stuck step) w () w' :=
  .bind h.reify .pure

theorem publishGeneration_passes {n : Nat} {digest : Option ReceiptKeyDigest}
    (h : w.store.generationHandleCurrent = true) :
    Passes (publishGeneration n digest) w () (w.advanceGeneration n) := by
  refine Passes.mapError ?_
  refine .bind checkDeadline_passes (.bind (verifyNamedAuthority_passes h) ?_)
  have hstage : Passes (stageFile .generation "create receipt generation staging file" .storeUnavailable
      "persist receipt generation staging file" (orCleanup .generation .storeUnavailable)) w ()
      (w.restage .generation (· + 1)) :=
    .bind (io_passes _) (.modify_bind (.bind .attempt (.bind (orCleanup_passes (io_passes _))
      (orCleanup_passes checkDeadline_passes))))
  refine .bind hstage (.bind (orCleanup_passes (io_passes _)) (.modify_bind ?_))
  refine .bind (io_passes _) (.bind (io_passes _) (.bind (io_passes _) (.modify_bind ?_)))
  refine .bind (verifyNamedAuthority_passes rfl) (.bind checkDeadline_passes ?_)
  exact ⟨0, fun _ => rfl⟩

/-- Where the directory cannot be synced behind it, the envelope is gone. -/
theorem retireReceiptBatchBackings_mayFail {name : BatchName}
    (h : w.disk.batches.lookup name = some envelope) :
    MayFail (retireReceiptBatchBackings [name]) w (w.mapDisk (removeBatch name)) := by
  have hloop : Passes (retireBatchLoop [name]) w () (w.mapDisk (removeBatch name)) := by
    refine .bind checkDeadline_passes (.bind (io_passes _) (.get_bind ?_))
    refine .bind (compute_passes (okOr_eq_ok.mpr h)) ?_
    refine .bind (io_passes _) (.bind (io_passes _) (.bind (io_passes _) (.bind (io_passes _) ?_)))
    exact .modify_bind .pure
  exact .after hloop (.bind .attempt)

end Passing

theorem reclaimExpired_mayFail {name : BatchName} {digests : List ReceiptKeyDigest}
    {rest : List (BatchName × List ReceiptKeyDigest)} {entries : List CatalogEntry}
    (hgroups : bulkGroups w.catalog at' = (name, digests) :: rest)
    (hentries : lookupExpired w.catalog digests = .ok entries)
    (hvalid : validateRemovals w.catalog entries = .ok ()) (hclocked : w.Clocked)
    (hlt : w.clock + entries.length < wordBound) (henvelope : w.disk.batches.lookup name = some envelope) :
    MayFail (reclaimExpiredTombstonesUnderWriterLock at') w
      ((w.advanceGeneration (w.clock + entries.length)).mapDisk (removeBatch name)) := by
  refine MayFail.get_bind (.bind ?_)
  rw [hgroups]
  refine .bind (.after checkDeadline_passes (.get_bind ?_))
  refine .after (compute_passes hentries) (.after (compute_passes hvalid) ?_)
  refine .after (generationUnderWriterLock_passes hclocked) ?_
  refine .after (compute_passes (okOr_eq_ok.mpr (checkedAdd_eq_some.mpr ⟨hlt, rfl⟩))) ?_
  refine .after (publishGeneration_passes hclocked.handle) (.bind ?_)
  exact retireReceiptBatchBackings_mayFail henvelope

/-- The failure behind the removal leaves the receipts of the envelope without a file. -/
theorem not_failStop_of_exposed (hbacked : w.Backed) (hopen : w.unavailable = false)
    (h : Exposed w at') : ∃ o, ¬FailStop w at' o := by
  obtain ⟨name, digests, rest, entries, hgroups, hentries, hvalid, hclocked, hlt⟩ := h
  obtain ⟨hbacks, ⟨digest, hdigest⟩, htombstones⟩ := bulkGroups_spec (hgroups ▸ List.mem_cons_self)
  have hbacking := (hbacks digest).mp hdigest
  obtain ⟨e, he, -⟩ := htombstones digest hdigest
  have hfile := hbacked digest e he
  unfold Backs at hfile
  rw [hbacking] at hfile
  obtain ⟨envelope, -, -, henvelope, -⟩ := hfile
  obtain ⟨o, error, hout, hstate⟩ := reclaimExpired_mayFail hgroups hentries hvalid hclocked hlt henvelope
  refine ⟨o, fun hstop => ?_⟩
  dsimp only [FailStop] at hstop
  rw [hout, hstate] at hstop
  have hkept := (hstop nofun hopen).1 digest e he
  unfold Backs at hkept
  have hsame : ((w.advanceGeneration (w.clock + entries.length)).mapDisk
      (removeBatch name)).catalog.batchBacking.lookup digest = some name := hbacking
  rw [hsame] at hkept
  obtain ⟨gone, -, -, hgone, -⟩ := hkept
  have hnone : ((w.advanceGeneration (w.clock + entries.length)).mapDisk
      (removeBatch name)).disk.batches.lookup name = none := lookup_erase _ _
  rw [hnone] at hgone
  cases hgone

/-- **A reclamation is fail-stop, whatever fails, exactly where no envelope of expired tombstones
can be removed.** -/
theorem reclaim_failStop_iff (w : World) (at' : EpochMs) (hbacked : w.Backed)
    (hopen : w.unavailable = false) : (∀ o, FailStop w at' o) ↔ ¬Exposed w at' := by
  constructor
  · intro hstop hexposed
    obtain ⟨o, ho⟩ := not_failStop_of_exposed hbacked hopen hexposed
    exact ho (hstop o)
  · exact fun h o => failStop_of_not_exposed hbacked h o

end Unica.Receipt

namespace Unica.Receipt

open Lib

section Sample

attribute [local instance] Task.plainCodec

def sampleTombstone : EncodedRecord := ⟨buildTombstoneRecord (numberedKey 5) 1 .tombstoneMarker 7 0, by decide⟩

/-- One envelope with one tombstone in it. -/
def sampleWorld : World where
  disk := ⟨∅, Finmap.singleton 3 [sampleTombstone.stored], some 1, []⟩
  activeStaging := 0
  generationStaging := 0
  store :=
    { catalog := { commitCatalogInsert .empty sampleTombstone.entry with
        batchBacking := Finmap.singleton 5 3 }
      highwater := 1
      generationHandleCurrent := true
      poisoned := false }

theorem sampleWorld_backed : sampleWorld.Backed := by
  intro digest e he
  have hrecords : sampleWorld.catalog.records
      = (∅ : Table ReceiptKeyDigest CatalogEntry).insert 5 sampleTombstone.entry.withoutResultBody := rfl
  rw [hrecords] at he
  rcases Table.lookup_insert_cases he with ⟨rfl, rfl⟩ | ⟨-, he⟩
  · exact ⟨[sampleTombstone.stored], [sampleTombstone], sampleTombstone, rfl, rfl, List.mem_cons_self, rfl,
      by decide +kernel⟩
  · cases he

/-- The sync of the directory fails behind the removal of the envelope: the call returns an error,
the store stays open, and its catalog holds a receipt that is nowhere on the disk. -/
theorem removed_envelope_stays_catalogued : sampleWorld.Backed ∧ sampleWorld.unavailable = false ∧
      let r := reclaimExpiredTombstonesUnderWriterLock 1000000000000 sampleWorld
        (List.replicate 44 .proceed ++ [.fail])
      r.outcome = .error (.storage "sync retired receipt batches") ∧ r.state.unavailable = false ∧
        r.state.catalog.contains 5 = true ∧ r.state.disk.rows.lookup 5 = none ∧
        r.state.disk.batches = ∅ := by
  refine ⟨sampleWorld_backed, rfl, ?_⟩
  decide +kernel

/-- While the tombstone is in retention, no failure can do harm. -/
theorem reclaim_failStop_iff_young : sampleWorld.Backed ∧ ∀ o, FailStop sampleWorld 0 o := by
  refine ⟨sampleWorld_backed, (reclaim_failStop_iff sampleWorld 0 sampleWorld_backed rfl).mpr ?_⟩
  rintro ⟨name, digests, rest, entries, hgroups, -⟩
  cases hgroups

end Sample

end Unica.Receipt
