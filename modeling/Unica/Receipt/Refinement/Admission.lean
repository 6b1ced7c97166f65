import Unica.Receipt.Refinement.Reclaim
import Unica.Receipt.Operations.Admission
import Unica.Task.Record

/-!
# Admission touches its key and the expired holders of its identities

An admission reclaims up to two receipts before it writes its own row. Every
change it makes is about one of the three, so the rest of the ledger is as it was,
whatever fails and wherever the process dies. A holder that is still in retention
ends the call before its first change.
-/

namespace Unica.Receipt

open Lib Lib.Prog Lib.Protocol Finmap List Option Performs

variable [ReceiptCodec] {V : Verdict → Prop} {w w' : World} {α : Type} {S : ReceiptKeyDigest → Prop}
  {digest : ReceiptKeyDigest} {key : ReceiptKey} {at' : EpochMs} {cutoff : OriginalCutoffDescriptor}
  {e : CatalogEntry}

/-! ## What a change leaves alone -/

/-- The directory has the same row of its own for a receipt, and the same envelopes. -/
def Disk.SameFor (digest : ReceiptKeyDigest) (d d' : Disk) : Prop :=
  d'.rows.lookup digest = d.rows.lookup digest ∧ d'.batches = d.batches

theorem Disk.sameFor_putRow {d : Disk} {other : ReceiptKeyDigest} (row : PersistedRow)
    (hne : digest ≠ other) : d.SameFor digest (d.putRow other row) :=
  ⟨lookup_insert_of_ne _ hne, rfl⟩

/-- The catalog has the same receipt under a digest, in the same file. -/
def ReceiptCatalog.SameFor (digest : ReceiptKeyDigest) (c c' : ReceiptCatalog) : Prop :=
  c'.records.lookup digest = c.records.lookup digest
    ∧ c'.batchBacking.lookup digest = c.batchBacking.lookup digest

namespace Change

variable {change : Change}

theorem Touches.disk (hchange : change.Touches S) (hdigest : ¬S digest) :
    w.disk.SameFor digest (apply w change).disk ∧ ∀ d ∈ cuts w change, w.disk.SameFor digest d := by
  have hne : ∀ {other}, S other → digest ≠ other := by
    rintro _ hother rfl
    exact hdigest hother
  cases change with
  | write origin r =>
    have hput := w.disk.sameFor_putRow r.row (hne hchange)
    refine ⟨hput, fun d hd => ?_⟩
    simp only [cuts, mem_cons, not_mem_nil, or_false] at hd
    rcases hd with rfl | rfl <;> exact hput
  | remove e witness =>
    have hput := w.disk.sameFor_putRow witness.row (hne hchange)
    have hremoved : w.disk.SameFor digest (apply w (.remove e witness)).disk :=
      ⟨(lookup_erase_ne (hne hchange)).trans hput.1, hput.2⟩
    refine ⟨hremoved, fun d hd => ?_⟩
    simp only [cuts, mem_cons, not_mem_nil, or_false] at hd
    rcases hd with rfl | rfl | rfl
    · exact hput
    · exact hput
    · exact hremoved
  | materialize r =>
    have hput := w.disk.sameFor_putRow r.row (hne hchange)
    refine ⟨hput, fun d hd => ?_⟩
    rw [mem_singleton.mp hd]
    exact hput

theorem Touches.catalog (hchange : change.Touches S) (henabled : Enabled w change)
    (hdigest : ¬S digest) : w.catalog.SameFor digest (apply w change).catalog := by
  have hne : ∀ {other}, S other → digest ≠ other := by
    rintro _ hother rfl
    exact hdigest hother
  cases change with
  | write origin r =>
    rw [write_catalog, ReceiptCatalog.SameFor, commitOrigin_records henabled.known,
      (commitOrigin_rest origin r w.catalog).1]
    exact ⟨lookup_insert_of_ne _ (hne hchange), rfl⟩
  | remove e witness =>
    rw [remove_catalog, commitCatalogRemove]
    exact ⟨lookup_erase_ne (hne hchange), rfl⟩
  | materialize r => exact ⟨rfl, lookup_erase_ne (hne hchange)⟩

theorem Touches.represents (hchange : change.Touches S) (henabled : Enabled w change)
    (h : w.catalog.Represents) : (apply w change).catalog.Represents := by
  cases change with
  | write origin r =>
    cases origin with
    | none => exact (insert_step h henabled.accepted).2
    | some e => exact (replace_step h henabled.accepted).2
  | remove e witness =>
    exact remove_step h henabled.accepted
  | materialize r =>
    -- the file a receipt is in is no part of what a catalog counts and indexes
    exact ⟨⟨h.keyed, h.bodyless, h.invocations, h.reservedTasks, h.actual, h.reserved, h.tombstone,
      h.live, h.tombstones, h.actual_lt, h.reserved_lt, h.tombstone_lt, h.live_lt, h.tombstones_lt⟩,
      h.fits⟩

/-- The protocol of an operation on the receipts in `S`. -/
abbrev touching (S : ReceiptKeyDigest → Prop) : Protocol World := protocol (Touches S)

/-- What a run leaves alone. -/
theorem follows_keeps (h : (touching S).Follows w w') :
    (∀ digest, ¬S digest → w.disk.SameFor digest w'.disk ∧ w.catalog.SameFor digest w'.catalog)
      ∧ (w.catalog.Represents → w'.catalog.Represents) := by
  induction h with
  | refl => exact ⟨fun _ _ => ⟨⟨rfl, rfl⟩, rfl, rfl⟩, id⟩
  | @tail t _ _ hlast ih =>
    obtain ⟨change, hchange, henabled, rfl⟩ := hlast
    refine ⟨fun digest hdigest => ?_, fun hc => hchange.represents henabled (ih.2 hc)⟩
    obtain ⟨hdisk, hcatalog⟩ := ih.1 digest hdigest
    have hdisk' := (hchange.disk (w := t) hdigest).1
    have hcatalog' := hchange.catalog henabled hdigest
    exact ⟨⟨hdisk'.1.trans hdisk.1, hdisk'.2.trans hdisk.2⟩, hcatalog'.1.trans hcatalog.1,
      hcatalog'.2.trans hcatalog.2⟩

theorem follows_batches (h : (touching S).Follows w w') : w'.disk.batches = w.disk.batches := by
  induction h with
  | refl => rfl
  | tail _ hlast ih =>
    obtain ⟨change, -, -, rfl⟩ := hlast
    cases change <;> exact ih

/-- Wherever a run is cut short, the directory is the same outside `S`. -/
theorem interrupted_keeps (h : (touching S).Interrupted w w') (hdigest : ¬S digest) :
    w.disk.SameFor digest w'.disk := by
  obtain ⟨t, hfollows, hend⟩ := h
  have hkept := ((follows_keeps hfollows).1 digest hdigest).1
  rcases hend with hquiet | ⟨change, hchange, -, hcut⟩
  · rw [hquiet.disk]
    exact hkept
  · have hlast := (hchange.disk hdigest).2 _ hcut
    exact ⟨hlast.1.trans hkept.1, hlast.2.trans hkept.2⟩

/-- Where `S` is empty nothing is changed. -/
theorem not_touches (hS : ∀ d, ¬S d) : ¬change.Touches S := by
  intro h
  cases change <;> exact hS _ h

theorem quiet_of_follows (hS : ∀ d, ¬S d) (h : (touching S).Follows w w') : w' = w := by
  induction h with
  | refl => rfl
  | tail _ hlast _ =>
    obtain ⟨_, hchange, -⟩ := hlast
    exact absurd hchange (not_touches hS)

theorem quiet_of_interrupted (hS : ∀ d, ¬S d) (h : (touching S).Interrupted w w') : Quiet w w' := by
  obtain ⟨t, hfollows, hend⟩ := h
  obtain rfl := quiet_of_follows hS hfollows
  rcases hend with hquiet | ⟨_, hchange, -⟩
  · exact hquiet
  · exact absurd hchange (not_touches hS)

/-- A failure is an interruption, too. -/
theorem interrupted_of_failed (h : (touching S).Failed w w') : (touching S).Interrupted w w' := by
  rcases h with ⟨t, hfollows, hquiet⟩ | ⟨-, h⟩
  · exact ⟨t, hfollows, .inl hquiet⟩
  · exact h

end Change

open Change

/-! ## The receipts an admission is about -/

/-- The receipt holds an identity of the key. -/
def SharesIdentity (key : ReceiptKey) (e : CatalogEntry) : Prop :=
  e.record.key.invocationId = key.invocationId ∨ e.record.key.reservedTaskId = key.reservedTaskId

/-- The key's own receipt, or one that holds an identity of the key and has expired. -/
def Admissible (c : ReceiptCatalog) (key : ReceiptKey) (at' : EpochMs) (digest : ReceiptKeyDigest) : Prop :=
  digest = receiptKeyDigest key
    ∨ ∃ e, c.records.lookup digest = some e ∧ SharesIdentity key e ∧ entryIsExpiredIdentity e at' = true

/-- Another receipt holds an identity of the key and has not expired. -/
def Blocked (c : ReceiptCatalog) (key : ReceiptKey) (at' : EpochMs) : Prop :=
  ∃ digest e, c.records.lookup digest = some e ∧ e.record.key ≠ key ∧ SharesIdentity key e
    ∧ entryIsExpiredIdentity e at' = false

/-- The receipts an admission goes on to change. -/
def MayTouch (c : ReceiptCatalog) (key : ReceiptKey) (at' : EpochMs) (digest : ReceiptKeyDigest) : Prop :=
  ¬Blocked c key at' ∧ Admissible c key at' digest

/-- The catalog has a receipt of the key. -/
def Holds (key : ReceiptKey) (w : World) : Prop :=
  ∃ e, w.catalog.records.lookup (receiptKeyDigest key) = some e ∧ e.record.key = key

/-- The only holder of the identities of a catalogued key is its own receipt. -/
theorem Holds.unique (h : Holds key w) (hc : w.catalog.Represents)
    (he : w.catalog.records.lookup digest = some e) (hshares : SharesIdentity key e) :
    digest = receiptKeyDigest key := by
  obtain ⟨own, hown, rfl⟩ := h
  rcases hshares with hid | hid
  · have hfirst := hc.invocations.lookup_of he
    rw [hid, hc.invocations.lookup_of hown] at hfirst
    exact (some.inj hfirst).symm
  · have hfirst := hc.reservedTasks.lookup_of he
    rw [hid, hc.reservedTasks.lookup_of hown] at hfirst
    exact (some.inj hfirst).symm

theorem Holds.not_blocked (h : Holds key w) (hc : w.catalog.Represents) : ¬Blocked w.catalog key at' := by
  rintro ⟨digest, e, he, hkey, hshares, -⟩
  rw [h.unique hc he hshares] at he
  obtain ⟨own, hown, hownKey⟩ := h
  rw [hown] at he
  obtain rfl := some.inj he
  exact hkey hownKey

omit [ReceiptCodec] in
theorem identityCandidate_observes {I : Type} [DecidableEq I] {index : Table I ReceiptKeyDigest}
    {f : CatalogEntry → I} (hindex : index.Indexes w.catalog.records f) (i : I)
    {mismatch : ReceiptLedgerError} :
    Observes Quiet V (reclaimCandidate (index.lookup i) at' mismatch) w fun digests =>
      (∀ d ∈ digests, ∃ e, w.catalog.records.lookup d = some e ∧ f e = i
        ∧ entryIsExpiredIdentity e at' = true)
      ∧ ∀ d e, w.catalog.records.lookup d = some e → f e = i → entryIsExpiredIdentity e at' = true := by
  refine reclaimCandidate_observes.mono fun digests h => ⟨fun d hd => ?_, fun d e he hi => ?_⟩
  · rw [h.1, mem_toList] at hd
    obtain ⟨e, he, hexpired⟩ := h.2 d hd
    obtain ⟨e', he', hi⟩ := (hindex i d).mp hd
    rw [he] at he'
    obtain rfl := some.inj he'
    exact ⟨e, he, hi, hexpired⟩
  · obtain ⟨e', he', hexpired⟩ := h.2 d ((hindex i d).mpr ⟨e, he, hi⟩)
    rw [he] at he'
    obtain rfl := some.inj he'
    exact hexpired

theorem prepareNewAdmission_performs (hc : w.catalog.Represents)
    (hS : ∀ d, MayTouch w.catalog key at' d → S d) :
    (touching S).Performs V (prepareNewAdmissionUnderWriterLock key at') w
      fun _ _ => ¬Blocked w.catalog key at' := by
  refine .get_bind ?_
  refine .observe (identityCandidate_observes hc.invocations key.invocationId)
    fun byInvocation hinvocation => ?_
  refine .observe (identityCandidate_observes hc.reservedTasks key.reservedTaskId)
    fun byTask htask => ?_
  have hclear : ¬Blocked w.catalog key at' := by
    rintro ⟨d, e, he, -, hshares, hyoung⟩
    have hexpired := hshares.elim (hinvocation.2 d e he) (htask.2 d e he)
    rw [hexpired] at hyoung
    cases hyoung
  have hdigests : ∀ d ∈ ((byInvocation ++ byTask).insertionSort (· ≤ ·)).dedup, S d := by
    intro d hd
    rw [mem_dedup, mem_insertionSort, mem_append] at hd
    refine hS d ⟨hclear, .inr ?_⟩
    rcases hd with hd | hd
    · obtain ⟨e, he, hid, hexpired⟩ := hinvocation.1 d hd
      exact ⟨e, he, .inl hid, hexpired⟩
    · obtain ⟨e, he, hid, hexpired⟩ := htask.1 d hd
      exact ⟨e, he, .inr hid, hexpired⟩
  exact (reclaimListed_performs identityReclaimerOf_table _ hdigests (.inr hc.keyed)).mono
    (protocol_extends fun _ => Reclaims.touches) fun _ _ _ => hclear

/-! ## The two calls -/

omit [ReceiptCodec] in
theorem confirmAuthority_observes : Observes Quiet V (confirmAuthority digest) w fun _ => True :=
  Ends.sat confirmAuthority_ends (fun _ _ h => ⟨h, trivial⟩) (fun _ _ h => h.2) fun _ h => h

theorem committedExactly_observes (r : EncodedRecord) :
    Observes Quiet V (committedExactly r) w fun _ => True := by
  refine .get_bind ?_
  split
  case h_1 committed _ =>
    refine .bind (refuseWithLatch_observes _ _) fun _ _ => ?_
    exact .pure trivial
  case h_2 => exact latchCatalogError_observes _

omit [ReceiptCodec] in
theorem committedEntry_observes : Observes Quiet V (committedEntry digest) w fun _ => True :=
  .get_bind ((compute_observes _).mono fun _ _ => trivial)

/-- A first row of the key, with whatever looks at it afterwards. -/
theorem commitAdmitted_performs {r : EncodedRecord} {f : CatalogEntry → Ledger α}
    (hfree : w.unavailable = false) (hticks : w.Ticks r.record.mutationSequence)
    (hkey : r.record.key = key) (hdigest : r.record.keyDigest = receiptKeyDigest key)
    (hS : S (receiptKeyDigest key)) (hvalid : validateCatalogInsert w.catalog r.entry false = .ok ())
    (hf : ∀ e w', Observes Quiet V (f e) w' fun _ => True) :
    (touching S).Performs V (do
      commitNewRow r
      confirmAuthority r.record.keyDigest
      let committed ← committedExactly r
      f committed) w fun _ w' => Holds key w' := by
  have hrow : Touches S (.write none r) := by
    rw [← hdigest] at hS
    exact hS
  have hwritable : w.disk.rows.lookup r.record.keyDigest = none → Writable w none r := by
    intro habsent
    exact ⟨hfree, hticks, (validateCatalogInsert_ok.mp hvalid).digest_absent,
      fun _ => by rw [hkey, hdigest], fun _ => habsent, hvalid⟩
  refine .bind (of_commits (commits_write hrow hwritable rfl publishNewRecord_ends)) ?_
  rintro _ w₁ rfl
  have hholds : Holds key (apply w (.write none r)) := by
    refine ⟨r.entry.withoutResultBody, ?_, hkey⟩
    rw [← hdigest]
    exact lookup_insert _
  refine .observe confirmAuthority_observes fun _ _ => ?_
  refine .observe (committedExactly_observes r) fun committed _ => ?_
  refine (of_observes (hf committed _)).imp ?_
  rintro _ _ ⟨rfl, -⟩
  exact hholds

theorem admitReservation_performs (hfree : w.unavailable = false)
    (hc : w.catalog.Represents) (hS : ∀ d, MayTouch w.catalog key cutoff.acceptedEpochMs d → S d) :
    (touching S).Performs V (admitReservation key cutoff) w
      fun _ w' => ¬Blocked w.catalog key cutoff.acceptedEpochMs ∧ Holds key w' := by
  refine .bind (prepareNewAdmission_performs hc hS).follows fun _ w₁ hw₁ => ?_
  obtain ⟨hclear, hfollows⟩ := hw₁
  refine .observe (latchCatalogResult_observes generationUnderWriterLock_observes)
    fun generation hgeneration => ?_
  refine .observe (orReject_observes _) fun sequence hsequence => ?_
  refine .observe (orReject_observes _) fun r hr => ?_
  obtain ⟨hrecord, -⟩ := serializeReservedRecord_ok hr
  have hticks : w₁.Ticks r.record.mutationSequence := by
    rw [hrecord]
    exact hgeneration.1.ticks hgeneration.2 hsequence
  refine .get_bind ?_
  refine .observe (orReject_observes _) fun _ _ => ?_
  refine .observe (orReject_observes _) fun _ hvalid => ?_
  refine (commitAdmitted_performs (follows_free hfollows hfree) hticks (by rw [hrecord]; rfl)
    (by rw [hrecord]; rfl) (hS _ ⟨hclear, .inl rfl⟩) hvalid fun committed w₂ => ?_).imp
    fun _ _ hholds => ⟨hclear, hholds⟩
  refine .bind (compute_observes _) fun _ _ => ?_
  exact .pure trivial

theorem admitCancellation_performs (hfree : w.unavailable = false) (hc : w.catalog.Represents)
    (hS : ∀ d, MayTouch w.catalog key at' d → S d) :
    (touching S).Performs V (admitCancellation key at') w
      fun _ w' => ¬Blocked w.catalog key at' ∧ Holds key w' := by
  refine .bind (prepareNewAdmission_performs hc hS).follows fun _ w₁ hw₁ => ?_
  obtain ⟨hclear, hfollows⟩ := hw₁
  refine .observe (latchCatalogResult_observes generationUnderWriterLock_observes)
    fun generation hgeneration => ?_
  refine .observe (orReject_observes _) fun sequence hsequence => ?_
  refine .observe (orReject_observes _) fun r hr => ?_
  obtain ⟨hrecord, -⟩ := serializeReservedRecord_ok hr
  have hticks : w₁.Ticks r.record.mutationSequence := by
    rw [hrecord]
    exact hgeneration.1.ticks hgeneration.2 hsequence
  refine .get_bind ?_
  refine .observe (orReject_observes _) fun _ hvalid => ?_
  refine (commitAdmitted_performs (follows_free hfollows hfree) hticks (by rw [hrecord]; rfl)
    (by rw [hrecord]; rfl) (hS _ ⟨hclear, .inl rfl⟩) hvalid fun committed w₂ => ?_).imp
    fun _ _ hholds => ⟨hclear, hholds⟩
  split
  case h_1 => exact .pure trivial
  case h_2 => exact latchCatalogError_observes _

theorem commitReplacement_performs {r : EncodedRecord} (hfound : w.Found key e)
    (hc : w.catalog.Represents) (hticks : w.Ticks r.record.mutationSequence)
    (hS : S (receiptKeyDigest key)) (hvalid : validateCatalogReplace w.catalog e r.entry = .ok ()) :
    (touching S).Performs V (commitReplacementRow r) w fun _ w' => Holds key w' := by
  have haccepted := validateCatalogReplace_ok.mp hvalid
  have hdigest := haccepted.digest_eq.trans (World.Keyed.catalogued hc.keyed hfound.catalogued)
  have hwritable : Writable w (some e) r :=
    ⟨hfound.free, hticks, ⟨haccepted.digest_eq ▸ haccepted.holds, haccepted.key_eq, haccepted.digest_eq⟩,
      nofun, nofun, hvalid⟩
  have hrow : Touches S (.write (some e) r) := by
    rw [← hdigest] at hS
    exact hS
  refine (of_commits (commits_write hrow (fun _ => hwritable) rfl (publishRow_ends (io_observes _)))).imp ?_
  rintro _ _ rfl
  refine ⟨r.entry.withoutResultBody, ?_, haccepted.key_eq.trans hfound.key_eq⟩
  rw [← hdigest, write_catalog, commitOrigin_records hwritable.known]
  exact lookup_insert _

theorem convertCancelReserved_performs
    (hfound : w.Found key e) (hc : w.catalog.Represents) (hS : S (receiptKeyDigest key)) :
    (touching S).Performs V (convertCancelReservedToSubmit e key cutoff) w fun _ w' => Holds key w' := by
  unfold convertCancelReservedToSubmit
  have hnone : ∀ {β : Type} {m : Ledger β} {f : β → Ledger ReserveOutcome},
      Observes Quiet V m w (fun _ => False) →
        (touching S).Performs V (m >>= f) w fun _ w' => Holds key w' :=
    fun h => observe h fun _ hf => hf.elim
  split
  case h_2 => exact hnone (latchCatalogError_observes _)
  case h_1 =>
  refine .observe (Observes.pure (P := fun _ => True) trivial) fun cancelRequested _ => ?_
  refine .observe (orLatch_observes _) fun version _ => ?_
  refine .observe (latchCatalogResult_observes generationUnderWriterLock_observes)
    fun generation hgeneration => ?_
  refine .observe (orLatch_observes _) fun sequence hsequence => ?_
  refine .observe (orReject_observes _) fun r hr => ?_
  obtain ⟨hrecord, -⟩ := serializeReservedRecord_ok hr
  have hticks : w.Ticks r.record.mutationSequence := by
    rw [hrecord]
    exact hgeneration.1.ticks hgeneration.2 hsequence
  refine .get_bind ?_
  split
  case h_2 error _ =>
    split
    case isTrue => exact hnone (latchCatalogError_observes error)
    case isFalse => exact hnone (rejectBeforeMutation_observes error)
  case h_1 hvalid =>
  refine .bind (commitReplacement_performs hfound hc hticks hS hvalid)
    fun _ w₁ hholds => ?_
  refine .observe confirmAuthority_observes fun _ _ => ?_
  refine .observe (committedExactly_observes r) fun committed _ => ?_
  split
  case h_1 => exact .pure hholds
  case h_2 =>
    refine (of_observes (latchCatalogError_observes (P := fun _ => False) _)).imp ?_
    rintro _ _ ⟨-, hf⟩
    exact hf.elim

theorem commitReservedCancel_performs (hfound : w.Found key e)
    (hc : w.catalog.Represents) (hS : S (receiptKeyDigest key)) :
    (touching S).Performs V (commitReservedCancelUnderWriterLock e) w fun _ w' => Holds key w' := by
  refine .observe (compute_observes _) fun version _ => ?_
  refine .observe nextMutationSequence_observes fun sequence hticks => ?_
  refine .observe (compute_observes _) fun record hrecord => ?_
  have hsequence : record.mutationSequence = sequence := by
    simp only [buildReservedCancelRecord, bind_eq_ok] at hrecord
    obtain ⟨reserved, -, hrecord⟩ := hrecord
    cases hrecord
    cases reserved.phase <;> rfl
  have hreplaced : (touching S).Performs V (replaceRow e record maxTaskRecordEnvelopeBytes) w
      fun _ w' => Holds key w' := by
    refine .observe (compute_observes _) fun r hr => ?_
    obtain ⟨rfl, -⟩ := serializeReservedRecord_ok hr
    refine .get_bind ?_
    refine .observe (compute_observes _) fun _ hvalid => ?_
    refine .bind
      (commitReplacement_performs hfound hc (by rw [hsequence]; exact hticks) hS hvalid) fun _ w₁ hholds => ?_
    exact .pure hholds
  refine .bind hreplaced fun _ w₁ hholds => ?_
  refine .observe committedEntry_observes fun committed _ => ?_
  refine (of_observes (compute_observes _)).imp ?_
  rintro _ _ ⟨rfl, -⟩
  exact hholds

theorem readExisting_observes {existing : CatalogEntry}
    (hexisting : w.catalog.records.lookup (receiptKeyDigest key) = some existing) :
    Observes Quiet V (readExisting key existing) w fun x => w.Found key x.1 ∧ Holds key w := by
  unfold readExisting
  split
  case isTrue =>
    exact .bind (P := fun _ => False) (rejectBeforeMutation_observes _) fun _ h => h.elim
  case isFalse hne =>
  have hkey := not_not.mp hne
  refine .bind (readEntryUnderWriterLock_observes _) fun entry hentry => ?_
  cases entry with
  | none => exact .throw (.refl w)
  | some persisted =>
    refine .bind (orLatch_observes _) fun state _ => ?_
    have hcatalogued := hentry.2.2 persisted rfl
    obtain ⟨stored, hstored, hsame⟩ := hcatalogued.lookup
    rw [hexisting] at hstored
    obtain rfl := some.inj hstored
    exact .pure ⟨⟨hentry.1, (same_key hsame).symm.trans hkey, hcatalogued⟩, existing, hexisting, hkey⟩

theorem expiredReclaimer_builds {state : ReceiptState} {p : ExpiryReclaimer}
    (h : expiredReclaimer state at' = some p) : p.Builds := by
  unfold expiredReclaimer at h
  split at h
  · split at h
    · cases h; exact tombstoneReclaimer_builds
    · cases h
  · split at h
    · cases h; exact directTerminalReclaimer_builds
    · cases h
  · cases h

/-- The receipt of the key itself is reclaimed, and the admission that follows finds fewer receipts. -/
theorem reclaimOwn_performs {p : ExpiryReclaimer} (hbuilds : p.Builds) {m : Ledger α}
    {R : α → World → Prop} (hfree : w.unavailable = false) (hc : w.catalog.Represents)
    (hholds : Holds key w)
    (hm : ∀ w₁, w₁.unavailable = false → w₁.catalog.Represents →
      (∀ d, MayTouch w₁.catalog key at' d → MayTouch w.catalog key at' d) →
        (touching (MayTouch w.catalog key at')).Performs V m w₁ R) :
    (touching (MayTouch w.catalog key at')).Performs V (do
      p.reclaim (receiptKeyDigest key) at'
      m) w R := by
  have hclear : ¬Blocked w.catalog key at' := hholds.not_blocked hc
  refine .bind ((reclaim_performs hbuilds ⟨hclear, .inl rfl⟩ (.inr hc.keyed)).mono
    (protocol_extends fun _ => Reclaims.touches)
    fun _ _ h => h).follows ?_
  rintro _ w₁ ⟨⟨gone, hrecords, -⟩, hfollows⟩
  refine hm w₁ (follows_free hfollows hfree) ((follows_keeps hfollows).2 hc) ?_
  rintro d ⟨-, howner | ⟨e, he, hshares⟩⟩
  · exact ⟨hclear, .inl howner⟩
  · have hne : d ≠ gone := by
      rintro rfl
      rw [hrecords, lookup_erase] at he
      cases he
    rw [hrecords, lookup_erase_ne hne] at he
    exact ⟨hclear, .inr ⟨e, he, hshares⟩⟩

theorem reserve_performs (hc : w.catalog.Represents) :
    (touching (MayTouch w.catalog key cutoff.acceptedEpochMs)).Performs V (reserve key cutoff) w
      fun _ w' => ¬Blocked w.catalog key cutoff.acceptedEpochMs ∧ Holds key w' := by
  refine .observe checkDeadline_observes fun _ _ => ?_
  refine .observe lockCatalog_observes fun _ _ => ?_
  refine .observe refuseUnavailable_observes fun _ hfree => ?_
  refine .observe checkDeadline_observes fun _ _ => ?_
  refine .observe (latchCatalogResult_observes verifyNamedAuthority_observes) fun _ _ => ?_
  refine .get_bind ?_
  split
  case h_1 => exact admitReservation_performs hfree hc fun _ h => h
  case h_2 existing hexisting =>
    refine .observe (readExisting_observes hexisting) fun x hx => ?_
    obtain ⟨hfound, hholds⟩ := hx
    have hclear : ¬Blocked w.catalog key cutoff.acceptedEpochMs := hholds.not_blocked hc
    dsimp only
    split
    case h_1 =>
      exact (convertCancelReserved_performs hfound hc ⟨hclear, .inl rfl⟩).imp fun _ _ h => ⟨hclear, h⟩
    case h_2 =>
      split
      case h_1 reclaimer hreclaimer =>
        refine reclaimOwn_performs (expiredReclaimer_builds hreclaimer) hfree hc hholds fun w₁ hfree₁ hc₁ hS => ?_
        exact (admitReservation_performs hfree₁ hc₁ hS).imp fun _ _ h => ⟨hclear, h.2⟩
      case h_2 => exact .pure ⟨hclear, hholds⟩

theorem requestCancelOrReserve_performs (hc : w.catalog.Represents) :
    (touching (MayTouch w.catalog key at')).Performs V (requestCancelOrReserve key at') w
      fun _ w' => ¬Blocked w.catalog key at' ∧ Holds key w' := by
  refine .observe checkDeadline_observes fun _ _ => ?_
  refine .observe lockCatalog_observes fun _ _ => ?_
  refine .observe refuseUnavailable_observes fun _ hfree => ?_
  refine .observe checkDeadline_observes fun _ _ => ?_
  refine .observe (latchCatalogResult_observes verifyNamedAuthority_observes) fun _ _ => ?_
  refine .get_bind ?_
  split
  case h_1 => exact admitCancellation_performs hfree hc fun _ h => h
  case h_2 existing hexisting =>
    refine .observe (readExisting_observes hexisting) fun x hx => ?_
    obtain ⟨hfound, hholds⟩ := hx
    have hclear : ¬Blocked w.catalog key at' := hholds.not_blocked hc
    dsimp only
    split
    case h_1 => exact .pure ⟨hclear, hholds⟩
    case h_2 reserved =>
      split
      case isTrue => exact .pure ⟨hclear, hholds⟩
      case isFalse =>
        refine .bind
          (commitReservedCancel_performs hfound hc ⟨hclear, .inl rfl⟩) fun _ w₁ hholds₁ => ?_
        exact .pure ⟨hclear, hholds₁⟩
    case h_3 =>
      split
      case h_1 reclaimer hreclaimer =>
        refine reclaimOwn_performs (expiredReclaimer_builds hreclaimer) hfree hc hholds fun w₁ hfree₁ hc₁ hS => ?_
        exact (admitCancellation_performs hfree₁ hc₁ hS).imp fun _ _ h => ⟨hclear, h.2⟩
      case h_2 => exact .pure ⟨hclear, hholds⟩

/-- What a call that admits the key at a time leaves of the ledger it started from. -/
structure AdmissionFrame (key : ReceiptKey) (at' : EpochMs) (w : World)
    (r : Run World ReceiptLedgerError α) : Prop where
  /-- The files of every other receipt are as they were, wherever the call ended. -/
  disk : ∀ digest, ¬Admissible w.catalog key at' digest → w.disk.SameFor digest r.state.disk
  /-- So is the catalog of a store that goes on serving. -/
  catalog : r.outcome ≠ .crashed → r.state.unavailable = false →
    ∀ digest, ¬Admissible w.catalog key at' digest → w.catalog.SameFor digest r.state.catalog
  /-- A holder in retention refuses the call before anything is changed. -/
  refused : Blocked w.catalog key at' → (∀ a, r.outcome ≠ .ok a) ∧ Quiet w r.state
  /-- A success leaves a receipt of the key. -/
  admitted : ∀ a, r.outcome = .ok a → Holds key r.state
  /-- The key has its identities to itself. -/
  unique : r.outcome ≠ .crashed → r.state.unavailable = false → Holds key r.state →
    ∀ digest e, r.state.catalog.records.lookup digest = some e → SharesIdentity key e →
      digest = receiptKeyDigest key

/-- A run that stopped somewhere leaves the rest of the directory, and where it was refused all of
it. -/
theorem admissionFrame_of_interrupted {r : Run World ReceiptLedgerError α} (hc : w.catalog.Represents)
    (h : (touching (MayTouch w.catalog key at')).Interrupted w r.state) (hout : ∀ a, r.outcome ≠ .ok a)
    (hserving : r.outcome ≠ .crashed → r.state.unavailable = false →
      ∃ t, (touching (MayTouch w.catalog key at')).Follows w t ∧ Quiet t r.state) :
    AdmissionFrame key at' w r where
  disk digest hdigest := interrupted_keeps h fun ht => hdigest ht.2
  catalog hcrash hfree digest hdigest := by
    obtain ⟨t, hfollows, hquiet⟩ := hserving hcrash hfree
    rw [hquiet.catalog_eq hfree]
    exact ((follows_keeps hfollows).1 digest fun ht => hdigest ht.2).2
  refused hblocked := ⟨hout, quiet_of_interrupted (fun _ ht => ht.1 hblocked) h⟩
  admitted a ha := absurd ha (hout a)
  unique hcrash hfree hholds digest e he hshares := by
    obtain ⟨t, hfollows, hquiet⟩ := hserving hcrash hfree
    have hrepresents := (follows_keeps hfollows).2 hc
    rw [← hquiet.catalog_eq hfree] at hrepresents
    exact hholds.unique hrepresents he hshares

theorem admissionFrame_of_performs {m : Ledger α} (hc : w.catalog.Represents)
    (h : (touching (MayTouch w.catalog key at')).Performs (fun _ => True) m w
      fun _ w' => ¬Blocked w.catalog key at' ∧ Holds key w') (o : List Verdict) :
    AdmissionFrame key at' w (m w o) := by
  have hrun := (h o fun _ _ => trivial).1
  cases hout : (m w o).outcome with
  | ok a =>
    rw [hout] at hrun
    obtain ⟨hfollows, hclear, hholds⟩ := hrun
    obtain ⟨hkept, hrepresents⟩ := follows_keeps hfollows
    exact
      { disk := fun digest hdigest => (hkept digest fun ht => hdigest ht.2).1
        catalog := fun _ _ digest hdigest => (hkept digest fun ht => hdigest ht.2).2
        refused := fun hblocked => absurd hblocked hclear
        admitted := fun _ _ => hholds
        unique := fun _ _ hholds' _ _ he hshares => hholds'.unique (hrepresents hc) he hshares }
  | error e =>
    rw [hout] at hrun
    refine admissionFrame_of_interrupted hc (interrupted_of_failed hrun) (by rw [hout]; exact nofun)
      fun _ hfree => ?_
    rcases hrun with hearly | ⟨hstopped, -⟩
    · exact hearly
    · exact absurd (hfree.symm.trans hstopped) nofun
  | crashed =>
    rw [hout] at hrun
    exact admissionFrame_of_interrupted hc hrun (by rw [hout]; exact nofun)
      fun hcrash => absurd hout hcrash

/-- **Both calls that admit a key keep to its receipt and the expired holders of its identities,
whatever fails.** -/
theorem admission_frame (w : World) (hc : w.catalog.Represents) (key : ReceiptKey) (o : List Verdict) :
    (∀ cutoff : OriginalCutoffDescriptor,
      AdmissionFrame key cutoff.acceptedEpochMs w (reserve key cutoff w o))
    ∧ ∀ at' : EpochMs, AdmissionFrame key at' w (requestCancelOrReserve key at' w o) :=
  ⟨fun _ => admissionFrame_of_performs hc (reserve_performs hc) o,
    fun _ => admissionFrame_of_performs hc (requestCancelOrReserve_performs hc) o⟩

end Unica.Receipt

namespace Unica.Receipt

section Sample

attribute [local instance] Task.plainCodec

/-- A ledger with one tombstone, acknowledged at time 0. -/
def tombstoneWorld : World where
  disk := ⟨∅, ∅, some 1, []⟩
  activeStaging := 0
  generationStaging := 0
  store :=
    { catalog := commitCatalogInsert .empty (numberedTombstone 2)
      highwater := 1
      generationHandleCurrent := true
      poisoned := false }

/-- A new invocation that reserves the Task of the tombstone. -/
def borrowingKey : ReceiptKey := { numberedKey 9 with reservedTaskId := 2 }

/-- While the tombstone is in retention its Task cannot be reserved again. -/
theorem admission_frame_borrowed :
    tombstoneWorld.catalog.Represents ∧ Blocked tombstoneWorld.catalog borrowingKey 0 ∧
      ∀ o, (∀ a, (requestCancelOrReserve borrowingKey 0 tombstoneWorld o).outcome ≠ .ok a)
        ∧ Quiet tombstoneWorld (requestCancelOrReserve borrowingKey 0 tombstoneWorld o).state := by
  have hrepresents : tombstoneWorld.catalog.Represents :=
    (insert_step ReceiptCatalog.empty_represents rfl).2
  have hblocked : Blocked tombstoneWorld.catalog borrowingKey 0 :=
    ⟨2, numberedTombstone 2, rfl, by decide, .inr rfl, rfl⟩
  refine ⟨hrepresents, hblocked, fun o => ?_⟩
  exact ((admission_frame tombstoneWorld hrepresents borrowingKey o).2 0).refused hblocked

end Sample

end Unica.Receipt
