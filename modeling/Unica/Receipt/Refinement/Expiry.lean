import Unica.Receipt.Refinement.Admission
import Unica.Receipt.System

/-!
# What a bulk expiry removes and what it leaves

A successful reclamation removes the expired receipts and nothing else: whole
envelopes of tombstones first, the rest one by one. What it leaves is read from the
file it was read from before, and so is as readable as it was. A receipt whose
envelope was superseded by a row of its own need not have been.
-/

variable {digest : ReceiptKeyDigest}

namespace Unica.Receipt

open Lib Lib.Prog Lib.Protocol List Prod Table Change

/-- When the retention of a receipt ends, for the lifecycles that have one. -/
def StoredActiveLifecycle.expiry : StoredActiveLifecycle → Option Nat
  | acknowledgedTombstone _ acknowledgedAt => some (acknowledgedAt + acknowledgedTombstoneTtlMs)
  | directTerminalUnacked _ terminalEpoch _ _ => some (terminalEpoch + directTerminalRetentionMs)
  | taskTerminalReceiptBacked task terminalEpoch _ _ _ => some (terminalEpoch + task.ttlMs)
  | _ => none

/-- The expiry is a machine word and has come. -/
def Expired (at' : EpochMs) (e : CatalogEntry) : Prop :=
  ∃ expires, e.record.lifecycle.expiry = some expires ∧ expires < wordBound ∧ expires ≤ at'

theorem retentionIsOver_iff {since period at' : Nat} :
    retentionIsOver since period at' = true ↔ since + period < wordBound ∧ since + period ≤ at' := by
  simp only [retentionIsOver, Option.any_eq_true, checkedAdd_eq_some, decide_eq_true_eq]
  constructor
  · rintro ⟨_, ⟨hlt, rfl⟩, hle⟩
    exact ⟨hlt, hle⟩
  · rintro ⟨hlt, hle⟩
    exact ⟨_, ⟨hlt, rfl⟩, hle⟩

variable {at' : EpochMs}

theorem expired_iff {e : CatalogEntry} :
    (entryIsExpiredTombstone e at' || entryIsExpiredDirectTerminal e at'
      || entryIsExpiredTaskReceiptTerminal e at') = true ↔ Expired at' e := by
  unfold entryIsExpiredTombstone entryIsExpiredDirectTerminal entryIsExpiredTaskReceiptTerminal Expired
  cases e.record.lifecycle <;> simp [StoredActiveLifecycle.expiry, retentionIsOver_iff]

theorem mem_expiredDigests {c : ReceiptCatalog} :
    digest ∈ expiredDigests c at' ↔ ∃ e, c.records.lookup digest = some e ∧ Expired at' e := by
  simp only [expiredDigests, mem_filter, mem_sortedKeys, Option.any_eq_true, expired_iff]
  constructor
  · rintro ⟨-, e, he, hexpired⟩
    exact ⟨e, he, hexpired⟩
  · rintro ⟨e, he, hexpired⟩
    exact ⟨⟨e, he⟩, e, he, hexpired⟩

variable {name : BatchName} {digests : List ReceiptKeyDigest}

theorem bulkGroups_expired {c : ReceiptCatalog} (h : (name, digests) ∈ bulkGroups c at') :
    ∀ digest ∈ digests, digest ∈ expiredDigests c at' := by
  intro digest hdigest
  obtain ⟨e, he, hexpired⟩ := (bulkGroups_spec h).2.2 digest hdigest
  exact mem_expiredDigests.mpr ⟨e, he, expired_iff.mp (by rw [hexpired]; rfl)⟩

/-! ## What is removed -/

variable {V : Verdict → Prop} {w w' w'' : World} {at' : EpochMs} {digest : ReceiptKeyDigest}

/-- The receipts of the digests are gone, and of the files at most their rows and the envelopes. -/
structure Removed (names : List BatchName) (digests : List ReceiptKeyDigest) (w w' : World) : Prop where
  row : ∀ digest ∉ digests, w'.disk.rows.lookup digest = w.disk.rows.lookup digest
  envelope : ∀ name ∉ names, w'.disk.batches.lookup name = w.disk.batches.lookup name
  backing : ∀ digest ∉ digests,
    w'.catalog.batchBacking.lookup digest = w.catalog.batchBacking.lookup digest
  kept : ∀ digest ∉ digests, w'.catalog.records.lookup digest = w.catalog.records.lookup digest
  gone : ∀ digest ∈ digests, w'.catalog.records.lookup digest = none

namespace Removed

variable {names names' : List BatchName} {digests digests' : List ReceiptKeyDigest}

theorem keyed (h : Removed names digests w w') (hw : w.Keyed) : w'.Keyed := by
  intro digest e he
  by_cases hdigest : digest ∈ digests
  · rw [h.gone digest hdigest] at he
    cases he
  · rw [h.kept digest hdigest] at he
    exact hw he

theorem trans (h : Removed names digests w w') (h' : Removed names' digests' w' w'') :
    Removed (names ++ names') (digests ++ digests') w w'' where
  row digest hdigest := by
    rw [mem_append, not_or] at hdigest
    rw [h'.row digest hdigest.2, h.row digest hdigest.1]
  envelope name hname := by
    rw [mem_append, not_or] at hname
    rw [h'.envelope name hname.2, h.envelope name hname.1]
  backing digest hdigest := by
    rw [mem_append, not_or] at hdigest
    rw [h'.backing digest hdigest.2, h.backing digest hdigest.1]
  kept digest hdigest := by
    rw [mem_append, not_or] at hdigest
    rw [h'.kept digest hdigest.2, h.kept digest hdigest.1]
  gone digest hdigest := by
    by_cases hlast : digest ∈ digests'
    · exact h'.gone digest hlast
    · rw [h'.kept digest hlast]
      exact h.gone digest ((mem_append.mp hdigest).resolve_right hlast)

end Removed

/-- What a success leaves. -/
abbrev Returns {α : Type} (V : Verdict → Prop) (m : Ledger α) (w : World) (Q : α → World → Prop) : Prop :=
  Ends V m w Q (fun _ _ => True) fun _ => True

theorem Returns.observe {α β : Type} {m : Ledger α} {f : α → Ledger β} {P : α → Prop}
    {Q : β → World → Prop} (hm : Observes Quiet V m w P) (hf : ∀ a, P a → Returns V (f a) w Q) :
    Returns V (m >>= f) w Q :=
  Ends.observe hm hf (fun _ _ _ => trivial) fun _ _ => trivial

theorem commitBulkRemoval_erases (name : BatchName) (entries : List CatalogEntry) (c : ReceiptCatalog) :
    let digests := entries.map fun e => e.record.keyDigest
    (commitBulkRemoval name entries c).records = digests.foldl (fun m d => m.erase d) c.records
      ∧ (commitBulkRemoval name entries c).batchBacking
        = digests.foldl (fun m d => m.erase d) c.batchBacking := by
  simp only [commitBulkRemoval]
  induction entries generalizing c with
  | nil => exact ⟨rfl, rfl⟩
  | cons e rest ih =>
    simp only [foldl_cons, map_cons]
    rw [(ih _).1, (ih _).2, commitCatalogRemove]
    exact ⟨rfl, rfl⟩

theorem reclaimBulkGroup_removes (hkeyed : w.Keyed) :
    Returns V (reclaimBulkGroup name digests) w fun _ w' => Removed [name] digests w w' := by
  refine .observe checkDeadline_observes fun _ _ => ?_
  refine .get_bind ?_
  refine Returns.observe (compute_observes _) fun entries hentries => ?_
  refine .observe (compute_observes _) fun _ _ => ?_
  refine .observe generationUnderWriterLock_observes fun generation _ => ?_
  refine .observe (compute_observes _) fun final _ => ?_
  refine .bind (.mono publishGeneration_ends (fun _ _ h => h) (fun _ _ _ => trivial)
    fun _ _ => trivial) ?_
  rintro _ w₁ rfl
  refine .bind (.mono (retireReceiptBatchBackings_ends [name]) (fun _ _ h => h)
    (fun _ _ _ => trivial) fun _ _ => trivial) ?_
  rintro _ w₂ rfl
  refine .modify ?_
  obtain ⟨hrecords, hbacking⟩ := commitBulkRemoval_erases name entries w.catalog
  rw [digests_of_lookupExpired hkeyed hentries] at hrecords hbacking
  have hname : ∀ other ∉ [name], other ≠ name := fun other hother => by simpa using hother
  exact
    { row := fun _ _ => rfl
      envelope := fun other hother => Finmap.lookup_erase_ne (hname other hother)
      backing := fun d hd => by
        change (commitBulkRemoval name entries w.catalog).batchBacking.lookup d = _
        rw [hbacking, lookup_foldl_erase, if_neg hd]
      kept := fun d hd => by
        change (commitBulkRemoval name entries w.catalog).records.lookup d = _
        rw [hrecords, lookup_foldl_erase, if_neg hd]
      gone := fun d hd => by
        change (commitBulkRemoval name entries w.catalog).records.lookup d = _
        rw [hrecords, lookup_foldl_erase, if_pos hd] }

theorem reclaimBulkGroups_removes (groups : List (BatchName × List ReceiptKeyDigest)) (hkeyed : w.Keyed) :
    Returns V (reclaimBulkGroups groups) w
      fun _ w' => Removed (groups.map fst) (groups.flatMap snd) w w' := by
  induction groups generalizing w with
  | nil => exact .pure ⟨fun _ _ => rfl, fun _ _ => rfl, fun _ _ => rfl, fun _ _ => rfl, nofun⟩
  | cons group rest ih =>
    refine .bind (reclaimBulkGroup_removes hkeyed) fun _ w₁ hfirst => ?_
    exact .mono (ih (hfirst.keyed hkeyed)) (fun _ _ hrest => hfirst.trans hrest) (fun _ _ h => h)
      fun _ h => h

variable [ReceiptCodec]

theorem reclaimEach_removes (hkeyed : w.Keyed) (digests : List ReceiptKeyDigest) :
    Returns V (reclaimEach at' digests) w fun _ w' => Removed [] digests w w' := by
  refine .mono (reclaimListed_performs expiryReclaimerOf_table digests
    (fun _ h => h) (.inr hkeyed)) ?_ (fun _ _ _ => trivial) fun _ _ => trivial
  rintro _ w' ⟨hreclaims, hrecords⟩
  have hfollows := (protocol_extends fun _ => Reclaims.touches).follows hreclaims
  obtain ⟨hkept, -⟩ := follows_keeps hfollows
  exact
    { row := fun d hd => (hkept d hd).1.1
      envelope := fun name _ => by rw [follows_batches hfollows]
      backing := fun d hd => (hkept d hd).2.2
      kept := fun d hd => (hkept d hd).2.1
      gone := fun d hd => by rw [hrecords hkeyed, lookup_foldl_erase, if_pos hd] }

/-- **A successful reclamation removes the expired receipts and counts them.** -/
theorem reclaimExpired_removes (at' : EpochMs) (hkeyed : w.Keyed) :
    Returns V (reclaimExpiredTombstones at') w fun n w' =>
      n = (expiredDigests w.catalog at').length ∧
        Removed ((bulkGroups w.catalog at').map fst) (expiredDigests w.catalog at') w w' := by
  refine .observe checkDeadline_observes fun _ _ => ?_
  refine .observe enter_observes fun _ _ => ?_
  refine .get_bind ?_
  refine .bind (reclaimBulkGroups_removes _ hkeyed) fun _ w₁ hbulk => ?_
  refine .bind (reclaimEach_removes (hbulk.keyed hkeyed) _) fun _ w₂ hrest => ?_
  refine .pure ⟨rfl, ?_⟩
  have hall := hbulk.trans hrest
  have hmem : ∀ d, d ∈ (bulkGroups w.catalog at').flatMap snd ++
      (expiredDigests w.catalog at').filter (fun d => d ∉ (bulkGroups w.catalog at').flatMap snd)
        ↔ d ∈ expiredDigests w.catalog at' := by
    intro d
    rw [mem_append, mem_filter, decide_eq_true_eq]
    constructor
    · rintro (hgroup | ⟨hexpired, -⟩)
      · obtain ⟨⟨name, digests⟩, hgroups, hd⟩ := mem_flatMap.mp hgroup
        exact bulkGroups_expired hgroups d hd
      · exact hexpired
    · intro hexpired
      by_cases hgroup : d ∈ (bulkGroups w.catalog at').flatMap snd
      · exact .inl hgroup
      · exact .inr ⟨hexpired, hgroup⟩
  rw [append_nil] at hall
  exact
    { row := fun d hd => hall.row d (mt (hmem d).mp hd)
      envelope := hall.envelope
      backing := fun d hd => hall.backing d (mt (hmem d).mp hd)
      kept := fun d hd => hall.kept d (mt (hmem d).mp hd)
      gone := fun d hd => hall.gone d ((hmem d).mpr hd) }

/-- Where nothing has expired there is nothing to do. -/
theorem reclaimExpired_observes (h : expiredDigests w.catalog at' = []) :
    Observes Quiet V (reclaimExpiredTombstones at') w (· = 0) := by
  have hgroups : bulkGroups w.catalog at' = [] := by
    refine eq_nil_iff_forall_not_mem.mpr fun ⟨name, digests⟩ hgroup => ?_
    obtain ⟨digest, hdigest⟩ := (bulkGroups_spec hgroup).2.1
    have hexpired := bulkGroups_expired hgroup digest hdigest
    rw [h] at hexpired
    cases hexpired
  refine attempt_bind ?_
  refine .bind enter_observes fun _ _ => ?_
  refine .get_bind ?_
  rw [hgroups, h]
  exact .pure rfl

/-! ## What is left -/

/-- The receipt is read from its file with the content the catalog has, when no step fails. -/
def World.Readable (w : World) (digest : ReceiptKeyDigest) (e : CatalogEntry) : Prop :=
  ∃ read, (readBackedEntry digest w []).outcome = .ok (some read) ∧ e.same read

section Reading

variable {α : Type}

omit [ReceiptCodec] in
theorem compute_alike (x : Except ReceiptLedgerError α) : Alike (compute x) (compute x) w w' := by
  unfold compute
  split
  case h_1 a => exact .pure a
  case h_2 message => exact .inr ⟨.panicked message, rfl, rfl⟩
  case h_3 e _ => exact .inr ⟨e, rfl, rfl⟩

omit [ReceiptCodec] in
theorem openRetainedReceiptBatch_alike (h : w'.disk.batches.lookup name = w.disk.batches.lookup name) :
    Alike (openRetainedReceiptBatch name) (openRetainedReceiptBatch name) w w' := by
  refine .bind (.attempt _) fun _ => ?_
  refine .get_bind ?_
  rw [h]
  refine .bind (compute_alike _) fun envelope => ?_
  refine .bind (.attempt _) fun _ => ?_
  refine .bind (.attempt _) fun _ => ?_
  exact .pure envelope

theorem readActiveRecordFrom_alike (h : w'.disk.rows.lookup digest = w.disk.rows.lookup digest) :
    Alike (readActiveRecordFrom digest) (readActiveRecordFrom digest) w w' := by
  have hbytes : Alike (readActiveRecordBytes digest) (readActiveRecordBytes digest) w w' := by
    refine .bind (.attempt _) fun _ => ?_
    refine .get_bind ?_
    rw [h]
    split
    case h_1 => exact .pure none
    case h_2 row _ =>
      refine .bind (.attempt _) fun _ => ?_
      refine .bind (.attempt _) fun _ => ?_
      refine .bind (.attempt _) fun _ => ?_
      refine .bind (compute_alike _) fun _ => ?_
      exact .pure (some row)
  refine .bind hbytes fun row => ?_
  cases row with
  | none => exact .pure none
  | some row => exact .bind (compute_alike _) fun entry => .pure (some entry)

end Reading

/-- What is read of a receipt depends on its own row and on the envelope the catalog names. -/
theorem readBackedEntry_alike (hrow : w'.disk.rows.lookup digest = w.disk.rows.lookup digest)
    (hbacking : w'.catalog.batchBacking.lookup digest = w.catalog.batchBacking.lookup digest)
    (hrecord : w'.catalog.records.lookup digest = w.catalog.records.lookup digest)
    (henvelope : ∀ name, w.catalog.batchBacking.lookup digest = some name →
      w'.disk.batches.lookup name = w.disk.batches.lookup name) :
    Alike (readBackedEntry digest) (readBackedEntry digest) w w' := by
  refine .get_bind ?_
  rw [hbacking, hrecord]
  split
  case h_1 => exact readActiveRecordFrom_alike hrow
  case h_2 name hname =>
    have hopened := openRetainedReceiptBatch_alike (henvelope name hname)
    dsimp only
    split
    case isTrue =>
      have hrows : Alike (readVerifiedReceiptBatch name) (readVerifiedReceiptBatch name) w w' := by
        refine .bind hopened fun envelope => ?_
        refine .bind (.attempt _) fun _ => ?_
        exact compute_alike _
      exact .bind hrows fun rows => .pure _
    case isFalse =>
      refine .bind (.bind hopened fun _ => .attempt _) fun _ => ?_
      exact .pure _

variable {names : List BatchName}

omit [ReceiptCodec] in
theorem not_mem_expiredDigests {e : CatalogEntry} (he : w.catalog.records.lookup digest = some e)
    (hyoung : ¬Expired at' e) : digest ∉ expiredDigests w.catalog at' := by
  intro hmem
  obtain ⟨e', he', hexpired⟩ := mem_expiredDigests.mp hmem
  rw [he] at he'
  obtain rfl := Option.some.inj he'
  exact hyoung hexpired

/-- What was left is read as it was: no envelope of it has been retired. -/
theorem Removed.reading_eq
    (h : Removed ((bulkGroups w.catalog at').map fst) (expiredDigests w.catalog at') w w')
    (hdigest : digest ∉ expiredDigests w.catalog at') :
    (readBackedEntry digest w []).outcome = (readBackedEntry digest w' []).outcome := by
  refine (readBackedEntry_alike (h.row digest hdigest) (h.backing digest hdigest) (h.kept digest hdigest)
    fun name hname => h.envelope name fun hretired => ?_).outcome_eq
  obtain ⟨⟨_, digests⟩, hgroup, rfl⟩ := mem_map.mp hretired
  have hin := ((bulkGroups_spec hgroup).1 digest).mpr hname
  exact hdigest (bulkGroups_expired hgroup digest hin)

omit [ReceiptCodec] in
theorem Removed.nothing_expired (h : Removed names (expiredDigests w.catalog at') w w') :
    expiredDigests w'.catalog at' = [] := by
  refine eq_nil_iff_forall_not_mem.mpr fun digest hdigest => ?_
  obtain ⟨e, he, hexpired⟩ := mem_expiredDigests.mp hdigest
  by_cases hbefore : digest ∈ expiredDigests w.catalog at'
  · rw [h.gone digest hbefore] at he
    cases he
  · rw [h.kept digest hbefore] at he
    exact hbefore (mem_expiredDigests.mpr ⟨e, he, hexpired⟩)

/-- A second reclamation finds nothing. -/
theorem reclaim_again (h : expiredDigests w.catalog at' = []) (o : List Verdict) :
    (reclaimExpiredTombstones at' w o).state.catalog.records = w.catalog.records
      ∧ ∀ m, (reclaimExpiredTombstones at' w o).outcome = .ok m → m = 0 := by
  have hrun := ((reclaimExpired_observes h) o fun _ _ => trivial).1
  cases hout : (reclaimExpiredTombstones at' w o).outcome with
  | ok m =>
    rw [hout] at hrun
    rw [hrun.1]
    exact ⟨rfl, fun m' hm' => by cases hm'; exact hrun.2⟩
  | error e | crashed =>
    rw [hout] at hrun
    exact ⟨hrun.records_eq, nofun⟩

/-- A reclamation that removed the expired receipts, counted them, and left the others readable and
nothing for a second one. -/
structure ReclaimsExactly (at' : EpochMs) (w : World) (n : Nat) (w' : World) : Prop where
  removed : ∀ digest e, w.catalog.records.lookup digest = some e → Expired at' e →
    w'.catalog.records.lookup digest = none
  kept : ∀ digest, (∀ e, w.catalog.records.lookup digest = some e → ¬Expired at' e) →
    w'.catalog.records.lookup digest = w.catalog.records.lookup digest
  counted : ∃ digests : List ReceiptKeyDigest, digests.Nodup ∧ n = digests.length ∧
    ∀ digest, digest ∈ digests ↔ ∃ e, w.catalog.records.lookup digest = some e ∧ Expired at' e
  readable : ∀ digest e, w'.catalog.records.lookup digest = some e → w'.Readable digest e
  again : ∀ o, (reclaimExpiredTombstones at' w' o).state.catalog.records = w'.catalog.records
    ∧ ∀ m, (reclaimExpiredTombstones at' w' o).outcome = .ok m → m = 0

end Unica.Receipt

namespace Unica.Receipt

open Lib

section Sample

attribute [local instance] Task.plainCodec

def plainCutoff : OriginalCutoffDescriptor := ⟨0, 0, Nat.zero_le _, Nat.two_pow_pos 64⟩

/-- A receipt reserved in a batch and finished by a row of its own. -/
def mixedRun : List LedgerEvent :=
  [.open [], .call (.reserveBatch 3 [(numberedKey 5, plainCutoff)]) [],
    .call (.publishDirectTerminalPublication (numberedKey 5) .initial 1 ⟨.cancelled, 7, rfl⟩) []]

/-- The read of the receipt gives nothing, or something other than the catalog has. -/
def readsElse (w : World) (digest : ReceiptKeyDigest) : Bool :=
  match (readBackedEntry digest w []).outcome with
  | .ok (some read) => (w.catalog.records.lookup digest).any fun e => ¬e.same read
  | _ => w.catalog.contains digest

theorem not_readable_of_readsElse {w : World} (h : readsElse w digest = true) :
    ∃ e, w.catalog.records.lookup digest = some e ∧ ¬w.Readable digest e := by
  unfold readsElse at h
  split at h
  case h_1 read hread =>
    obtain ⟨e, he, hne⟩ := (Option.any_eq_true _ _).mp h
    refine ⟨e, he, fun ⟨read', hread', hsame⟩ => of_decide_eq_true hne ?_⟩
    rw [hread] at hread'
    cases hread'
    exact hsame
  case h_2 hnone =>
    obtain ⟨e, he⟩ := Option.isSome_iff_exists.mp h
    exact ⟨e, he, fun ⟨read, hread, _⟩ => hnone read hread⟩

def compactTombstone : EncodedRecord := ⟨buildTombstoneRecord (numberedKey 5) 0 .tombstoneMarker 7 0, by decide⟩

/-- One tombstone, in a file of its own. -/
def ownRowWorld : World where
  disk := ⟨Finmap.singleton 5 compactTombstone.row, ∅, some 1, []⟩
  activeStaging := 0
  generationStaging := 0
  store :=
    { catalog := commitCatalogInsert .empty compactTombstone.entry
      highwater := 1
      generationHandleCurrent := true
      poisoned := false }

end Sample

end Unica.Receipt
