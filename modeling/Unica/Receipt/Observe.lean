import Unica.Receipt.Operations.Reclaim

/-!
# What the reads of an operation see

Most steps of an operation only look: they check a deadline, the directory, the
generation, or read a receipt back. Such a step leaves the directory and the
catalog alone; its failure can at most latch or poison the store and leave a
staging file. Each lemma says what a success has seen.
-/

namespace Unica.Receipt

open Lib Lib.Prog ReceiptCatalog Observes Bool

/-- Neither the directory nor the catalog has changed; the store may have been latched. -/
structure Quiet (w w' : World) : Prop where
  disk : w'.disk = w.disk
  catalog : w'.catalog = { w.catalog with unavailable := w'.unavailable }
  latched : w.unavailable = true → w'.unavailable = true
  highwater : w'.store.highwater = w.store.highwater
  handle : w'.store.generationHandleCurrent = w.store.generationHandleCurrent

namespace Quiet

variable {w w' w'' : World}

theorem refl (w : World) : Quiet w w := ⟨rfl, rfl, id, rfl, rfl⟩

theorem trans (h : Quiet w w') (h' : Quiet w' w'') : Quiet w w'' where
  disk := h'.disk.trans h.disk
  catalog := by rw [h'.catalog, h.catalog]
  latched hw := h'.latched (h.latched hw)
  highwater := h'.highwater.trans h.highwater
  handle := h'.handle.trans h.handle

theorem latch (w : World) : Quiet w w.latch := ⟨rfl, rfl, fun _ => rfl, rfl, rfl⟩

theorem poison (w : World) : Quiet w w.poison := ⟨rfl, rfl, id, rfl, rfl⟩

theorem restage (w : World) (area : StagingArea) (f : Nat → Nat) : Quiet w (w.restage area f) := by
  cases area with
  | active | generation => exact ⟨rfl, rfl, id, rfl, rfl⟩

theorem catalog_eq (h : Quiet w w') (hw : w'.unavailable = false) : w'.catalog = w.catalog := by
  have hfree : w.unavailable = false := by
    by_contra hne
    rw [h.latched (of_not_eq_false hne)] at hw
    cases hw
  rw [h.catalog, hw, ← hfree]
  rfl

theorem records_eq (h : Quiet w w') : w'.catalog.records = w.catalog.records := by
  rw [h.catalog]

end Quiet

/-- The generation the next mutation counts from. -/
def World.clock (w : World) : Nat := max (w.disk.generation.getD 0) w.store.highwater

/-- The generation record can be read. -/
structure World.Clocked (w : World) : Prop where
  handle : w.store.generationHandleCurrent = true
  recorded : w.disk.generation.isSome = true

section Observers

variable {V : Verdict → Prop} {w : World} {α : Type} {P : α → Prop}

theorem io_observes (operation : String) : Observes Quiet V (io operation) w fun _ => True :=
  .attempt (.refl w) trivial

theorem checkDeadline_observes : Observes Quiet V checkDeadline w fun _ => True :=
  .attempt (.refl w) trivial

/-- A step that may fail and sees nothing, then the rest. -/
theorem attempt_bind {e : ReceiptLedgerError} {f : Unit → Ledger α}
    (h : Observes Quiet V (f ()) w P) : Observes Quiet V (attempt e >>= f) w P :=
  .bind (P := fun _ => True) (.attempt (.refl w) trivial) fun _ _ => h

theorem compute_observes (x : Except ReceiptLedgerError α) :
    Observes Quiet V (compute x) w fun a => x = .ok a := by
  unfold compute
  split
  case h_1 => exact pure rfl
  case h_2 message =>
    exact Sat.bind (P := fun out w' => out = .ok () ∧ w' = w.poison) (.modify ⟨rfl, rfl⟩)
      (fun _ w' h => .throw (by rw [h.2]; exact .poison w)) (fun _ _ h => by cases h.1)
      fun _ h => by cases h.1
  case h_3 e _ => exact throw (.refl w)

theorem latchCatalogResult_observes {m : Ledger α} (h : Observes Quiet V m w P) :
    Observes Quiet V (latchCatalogResult m) w P :=
  .onError h fun _ w' hq => hq.trans (.latch w')

theorem latchCatalogError_observes (e : ReceiptLedgerError) :
    Observes Quiet V (latchCatalogError e : Ledger α) w P :=
  Sat.bind (P := fun out w' => out = .ok () ∧ w' = w.latch) (Sat.modify ⟨rfl, rfl⟩)
    (fun _ w' h => Sat.throw (by rw [h.2]; exact .latch w)) (fun _ _ h => by cases h.1)
    fun _ h => by cases h.1

theorem lockCatalog_observes : Observes Quiet V lockCatalog w fun _ => w.store.poisoned = false := by
  refine .get_bind ?_
  split
  case isTrue => exact .throw (.refl _)
  case isFalse h => exact .pure (eq_false_iff.mpr h)

theorem refuseUnavailable_observes :
    Observes Quiet V refuseUnavailable w fun _ => w.unavailable = false := by
  refine .get_bind ?_
  split
  case isTrue => exact .throw (.refl _)
  case isFalse h => exact .pure (eq_false_iff.mpr h)

theorem verifyNamedAuthority_observes :
    Observes Quiet V verifyNamedAuthority w fun _ => w.store.generationHandleCurrent = true := by
  refine attempt_bind ?_
  refine attempt_bind ?_
  refine attempt_bind ?_
  refine attempt_bind ?_
  refine .get_bind ?_
  split
  case isTrue h =>
    refine attempt_bind ?_
    exact (io_observes _).mono fun _ _ => h
  case isFalse => exact .bind (P := fun _ => False) (.throw (.refl _)) fun _ h => h.elim

theorem generationUnderWriterLock_observes :
    Observes Quiet V generationUnderWriterLock w fun n => w.Clocked ∧ n = w.clock := by
  refine .bind verifyNamedAuthority_observes fun _ hhandle => ?_
  refine attempt_bind ?_
  refine attempt_bind ?_
  refine attempt_bind ?_
  refine .get_bind ?_
  refine .bind (compute_observes _) fun value hvalue => ?_
  rw [okOr_eq_ok] at hvalue
  refine .bind verifyNamedAuthority_observes fun _ _ => ?_
  refine .pure ⟨⟨hhandle, by rw [hvalue]; rfl⟩, ?_⟩
  rw [World.clock, hvalue]
  rfl

theorem underStableGeneration_observes {read : Ledger α} (h : Observes Quiet V read w P) :
    Observes Quiet V (underStableGeneration read) w fun a => w.unavailable = false ∧ P a := by
  refine .bind refuseUnavailable_observes fun _ hfree => ?_
  refine attempt_bind ?_
  refine .bind (latchCatalogResult_observes verifyNamedAuthority_observes) fun _ _ => ?_
  refine attempt_bind ?_
  refine .bind (latchCatalogResult_observes generationUnderWriterLock_observes) fun before _ => ?_
  refine attempt_bind ?_
  refine .bind h fun value hvalue => ?_
  refine attempt_bind ?_
  refine .bind (latchCatalogResult_observes generationUnderWriterLock_observes) fun after _ => ?_
  have hlast : Observes Quiet V (do
      checkDeadline
      latchCatalogResult verifyNamedAuthority
      checkDeadline
      pure value) w fun a => w.unavailable = false ∧ P a := by
    refine attempt_bind ?_
    refine .bind (latchCatalogResult_observes verifyNamedAuthority_observes) fun _ _ => ?_
    refine attempt_bind ?_
    exact .pure ⟨hfree, hvalue⟩
  split
  case isTrue => exact hlast
  case isFalse => exact .bind (latchCatalogError_observes _) fun _ (_ : True) => hlast

theorem openRetainedReceiptBatch_observes (name : BatchName) :
    Observes Quiet V (openRetainedReceiptBatch name) w
      fun envelope => w.disk.batches.lookup name = some envelope := by
  refine attempt_bind ?_
  refine .get_bind ?_
  refine .bind (compute_observes _) fun envelope henvelope => ?_
  refine attempt_bind ?_
  refine attempt_bind ?_
  exact .pure (okOr_eq_ok.mp henvelope)

theorem agreeOnEntry_ok {catalogued actual entry : Option CatalogEntry}
    (h : agreeOnEntry catalogued actual = .ok entry) :
    (catalogued = none ∧ entry = none)
      ∨ ∃ stored read, catalogued = some stored ∧ entry = some read ∧ stored.same read := by
  unfold agreeOnEntry at h
  split at h
  case h_1 => cases h; exact .inl ⟨rfl, rfl⟩
  case h_2 => cases h
  case h_3 => cases h
  case h_4 stored read =>
    split at h
    case isTrue hsame => cases h; exact .inr ⟨stored, read, rfl, rfl, hsame⟩
    case isFalse => cases h

/-- The catalog holds the entry, body aside. -/
def World.Catalogues (w : World) (digest : ReceiptKeyDigest) (entry : CatalogEntry) : Prop :=
  w.catalog.holds digest entry = true

theorem World.Catalogues.lookup {digest : ReceiptKeyDigest} {entry : CatalogEntry}
    (h : w.Catalogues digest entry) :
    ∃ stored, w.catalog.records.lookup digest = some stored ∧ stored.same entry :=
  holds_iff.mp h

theorem rejectBeforeMutation_observes (e : ReceiptLedgerError) :
    Observes Quiet V (rejectBeforeMutation e : Ledger α) w P := by
  refine attempt_bind ?_
  refine .bind (latchCatalogResult_observes verifyNamedAuthority_observes) fun _ _ => ?_
  exact .throw (.refl w)

theorem orReject_observes (x : Except ReceiptLedgerError α) :
    Observes Quiet V (orReject x) w fun a => x = .ok a := by
  cases x with
  | ok a => exact .pure rfl
  | error e => exact rejectBeforeMutation_observes e

theorem enter_observes : Observes Quiet V enter w fun _ => w.unavailable = false := by
  refine .bind lockCatalog_observes fun _ _ => ?_
  refine .bind refuseUnavailable_observes fun _ hfree => ?_
  exact (latchCatalogResult_observes verifyNamedAuthority_observes).mono fun _ _ => hfree

theorem orLatch_observes (x : Except ReceiptLedgerError α) :
    Observes Quiet V (orLatch x) w fun a => x = .ok a :=
  latchCatalogResult_observes (compute_observes x)

theorem refuseWithLatch_observes (p : Prop) [Decidable p] (e : ReceiptLedgerError) :
    Observes Quiet V (refuseWithLatch p e) w fun _ => ¬ p := by
  unfold refuseWithLatch
  split
  case isTrue => exact latchCatalogError_observes e
  case isFalse h => exact .pure h

theorem same_key {a b : CatalogEntry} (h : a.same b) : a.record.key = b.record.key := by
  have hrecord : a.record.withoutResultBody.key = b.record.withoutResultBody.key :=
    congrArg StoredActiveReceipt.key h.2
  exact hrecord

/-- The sequence a mutation of this state gets. -/
structure World.Ticks (w : World) (sequence : Nat) : Prop extends w.Clocked where
  next : sequence = w.clock + 1
  lt : sequence < wordBound

theorem World.Clocked.ticks {generation n : Nat} (hw : w.Clocked) (hg : generation = w.clock)
    (h : nextSequence generation = .ok n) : w.Ticks n := by
  rw [nextSequence, okOr_eq_ok, checkedAdd_eq_some] at h
  exact ⟨hw, hg ▸ h.2.symm, h.2 ▸ h.1⟩

theorem nextMutationSequence_observes : Observes Quiet V nextMutationSequence w w.Ticks := by
  refine .bind (latchCatalogResult_observes generationUnderWriterLock_observes)
    fun generation hgeneration => ?_
  exact (compute_observes _).mono fun n hn => hgeneration.1.ticks hgeneration.2 hn

variable [ReceiptCodec]

theorem readActiveRecordBytes_observes (digest : ReceiptKeyDigest) :
    Observes Quiet V (readActiveRecordBytes digest) w fun row => row = w.disk.rows.lookup digest := by
  refine attempt_bind ?_
  refine .get_bind ?_
  split
  case h_1 hnone => exact .pure hnone.symm
  case h_2 row hsome =>
    refine attempt_bind ?_
    refine attempt_bind ?_
    refine attempt_bind ?_
    refine .bind (compute_observes _) fun _ _ => ?_
    exact .pure hsome.symm

theorem readActiveRecordFrom_observes (digest : ReceiptKeyDigest) :
    Observes Quiet V (readActiveRecordFrom digest) w fun _ => True := by
  refine .bind (readActiveRecordBytes_observes digest) fun row _ => ?_
  cases row with
  | none => exact .pure trivial
  | some row =>
    refine .bind (compute_observes _) fun _ _ => ?_
    exact .pure trivial

theorem readVerifiedReceiptBatch_observes (name : BatchName) :
    Observes Quiet V (readVerifiedReceiptBatch name) w fun rows =>
      ∃ envelope, w.disk.batches.lookup name = some envelope
        ∧ decodeReceiptBatch envelope = .ok rows := by
  refine .bind (openRetainedReceiptBatch_observes name) fun envelope henvelope => ?_
  refine attempt_bind ?_
  exact (compute_observes _).mono fun _ hrows => ⟨envelope, henvelope, hrows⟩

theorem readBackedEntry_observes (digest : ReceiptKeyDigest) :
    Observes Quiet V (readBackedEntry digest) w fun _ => True := by
  refine .get_bind ?_
  split
  case h_1 => exact readActiveRecordFrom_observes digest
  case h_2 name _ =>
    dsimp only
    split
    case isTrue =>
      refine .bind (readVerifiedReceiptBatch_observes name) fun _ _ => ?_
      exact .pure trivial
    case isFalse =>
      refine .bind (.bind (openRetainedReceiptBatch_observes name) fun _ _ => io_observes _) fun _ _ => ?_
      exact .pure trivial

theorem readEntryUnderWriterLock_observes (digest : ReceiptKeyDigest) :
    Observes Quiet V (readEntryUnderWriterLock digest) w fun entry => w.unavailable = false
      ∧ (entry = none → w.catalog.records.lookup digest = none)
      ∧ ∀ e, entry = some e → w.Catalogues digest e := by
  refine .bind (underStableGeneration_observes
    (latchCatalogResult_observes (readBackedEntry_observes digest))) fun read hread => ?_
  refine .get_bind ?_
  refine (latchCatalogResult_observes (compute_observes _)).mono fun entry hentry => ?_
  refine ⟨hread.1, ?_⟩
  rcases agreeOnEntry_ok hentry with ⟨hnone, rfl⟩ | ⟨stored, e, hstored, rfl, hsame⟩
  · exact ⟨fun _ => hnone, fun _ he => absurd he (by simp)⟩
  · refine ⟨fun he => absurd he (by simp), fun e' he' => ?_⟩
    obtain rfl := Option.some.inj he'
    exact holds_iff.mpr ⟨stored, hstored, hsame⟩

/-- The receipt of a key as it was read back. -/
structure World.Found (w : World) (key : ReceiptKey) (entry : CatalogEntry) : Prop where
  free : w.unavailable = false
  key_eq : entry.record.key = key
  catalogued : w.Catalogues (receiptKeyDigest key) entry

theorem expiresAt_observes (p : ExpiryReclaimer) (persisted : CatalogEntry) :
    Observes Quiet V (p.expiresAt persisted) w fun expires =>
      ∃ state, persisted.state = .ok state ∧ p.expiry state = some (.ok expires) := by
  refine .bind (orLatch_observes _) fun state hstate => ?_
  cases hexpiry : p.expiry state with
  | none => exact latchCatalogError_observes _
  | some expires =>
    refine (compute_observes _).mono fun a ha => ⟨state, hstate, ?_⟩
    rw [hexpiry, ha]

end Observers

end Unica.Receipt
