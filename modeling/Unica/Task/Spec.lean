import Unica.Task.Store

/-!
# What the Task store's operations do

One specification per operation: the record it found, the conditions under which it
wrote, and the one record it wrote. An error before the rename is never
`CommitUncertain`; after it, the record is in place whatever the operation returned.
-/

namespace Unica.Task

open Lib Receipt Prog Discipline V5TaskIdentity Option Ends V5TerminalPublication ReceiptCodec TaskCodec Updates Except

/-- Errors and effects of the Task store's programs. A removal that is cut or fails half way leaves
its quarantine behind. -/
def discipline (V : Verdict → Prop) : Discipline TaskStore V5TaskStoreError where
  same s s' := s'.records = s.records ∧ s'.known = s.known
    ∧ (s'.quarantined = s.quarantined ∨ V .fail ∨ V .crash)
  before e := ∀ taskId operation, e ≠ .commitUncertain taskId operation
  after e := (∃ taskId operation, e = .commitUncertain taskId operation)
    ∨ e = .storage "delete protocol-v5 terminal task record"
  same_refl _ := ⟨rfl, rfl, .inl rfl⟩
  same_trans s t u hst htu := by
    refine ⟨htu.1.trans hst.1, htu.2.1.trans hst.2.1, ?_⟩
    rcases hst.2.2 with hq | hv
    · exact htu.2.2.imp_left (·.trans hq)
    · exact .inr hv

namespace V5StoredInvocationRecord

def withCancel (now : EpochMs) (r : V5StoredInvocationRecord) : V5StoredInvocationRecord :=
  { r with cancelRequested := true, version := r.version + 1, updatedAtEpochMs := max r.updatedAtEpochMs now }

def atWork (now : EpochMs) (r : V5StoredInvocationRecord) : V5StoredInvocationRecord :=
  { r with task := .working, version := r.version + 1, updatedAtEpochMs := max r.updatedAtEpochMs now }

def finished (p : V5TerminalPublication) (r : V5StoredInvocationRecord) : V5StoredInvocationRecord :=
  { r with task := p.intoStoredTask, version := r.version + 1, updatedAtEpochMs := p.terminalEpochMs }

def recovered (reason : RecoveryTerminalReason) (digest : TerminalDigest) (now : EpochMs)
    (r : V5StoredInvocationRecord) : V5StoredInvocationRecord :=
  { r with
    task := reason.storedTask now digest
    version := r.version + 1
    updatedAtEpochMs := max r.updatedAtEpochMs now }

end V5StoredInvocationRecord

section Specifications

variable {V : Verdict → Prop} {s : TaskStore}
variable {r : V5StoredInvocationRecord} {taskId : TaskId} {identity : V5TaskIdentity}
  {version : Nat} {operation : V5CommitOperation} {now : EpochMs} {C : Prop} {e : V5TaskStoreError}

theorem looks_io (operation : String) : (discipline V).Looks V (io operation) s (fun _ => True) C :=
  .attempt nofun

theorem looks_checkDeadline : (discipline V).Looks V checkDeadline s (fun _ => True) C :=
  .attempt nofun

theorem looks_lockWriter : (discipline V).Looks V lockWriter s (fun _ => True) C :=
  looks_checkDeadline.bind fun _ _ => looks_checkDeadline

theorem looks_verifyRootAuthority : (discipline V).Looks V verifyRootAuthority s (fun _ => True) C :=
  (looks_io _).bind fun _ _ => looks_io _

/-- A check of values before the change. -/
theorem looks_refuseIf {p : Prop} [Decidable p] (hc : p → C) (he : (discipline V).before e := by nofun) :
    (discipline V).Looks V (lift (refuseIf p e)) s (fun _ => ¬ p) C := by
  refine (Looks.lift ?_).mono (fun _ h => refuseIf_eq_ok.mp h) id
  intro e' h
  obtain ⟨hp, rfl⟩ := refuseIf_eq_error.mp h
  exact ⟨he, hc hp⟩

variable [TaskCodec] {retirement : V5TaskRetirement} {p : V5StoredInvocationRecord → Prop}
  {reason : RecoveryTerminalReason}

/-- A record the store writes and reads back. -/
def Publishable (r : V5StoredInvocationRecord) : Prop :=
  validateRecord r = .ok () ∧ TaskCodec.recordLength r ≤ maxTaskRecordBytes

/-- The directory holds the record under the id and a reader accepts it. -/
structure TaskStore.Holds (s : TaskStore) (taskId : TaskId) (r : V5StoredInvocationRecord) : Prop where
  lookup_eq : s.records.lookup taskId = some r
  id_eq : r.taskId = taskId
  publishable : Publishable r

/-- The record is in place under its id. -/
structure TaskStore.Wrote (V : Verdict → Prop) (s s' : TaskStore) (r : V5StoredInvocationRecord) : Prop where
  records_eq : s'.records = s.records.insert r.taskId r
  known_eq : s'.known = insert r.taskId s.known
  quarantined_eq : s'.quarantined = s.quarantined ∨ V .fail ∨ V .crash
  publishable : Publishable r

theorem validateRecord_error (h : validateRecord r = .error e) :
    (∃ message, e = .corrupt message) ∨ ∃ bytes, e = .recordTooLarge bytes := by
  rcases bind_eq_error.mp h with h | ⟨_, -, h⟩
  · exact .inl ⟨_, (refuseIf_eq_error.mp h).2.symm⟩
  rcases bind_eq_error.mp h with h | ⟨_, -, h⟩
  · exact .inl ⟨_, (refuseIf_eq_error.mp h).2.symm⟩
  rcases bind_eq_error.mp h with h | ⟨_, -, h⟩
  · exact .inl ⟨_, (refuseIf_eq_error.mp h).2.symm⟩
  unfold validateResult at h
  split at h
  · split at h
    · cases h
    · exact .inr ⟨_, (error.inj h).symm⟩
    · exact .inl ⟨_, (error.inj h).symm⟩
  · cases h

theorem before_validateRecord (h : validateRecord r = .error e) : (discipline V).before e := by
  rcases validateRecord_error h with ⟨message, rfl⟩ | ⟨bytes, rfl⟩ <;> exact nofun

theorem TaskStore.Holds.unique {r' : V5StoredInvocationRecord}
    (h : s.Holds taskId r) (h' : s.Holds taskId r') : r' = r :=
  some.inj (h'.lookup_eq.symm.trans h.lookup_eq)

/-- What one held record fails, every held record fails. -/
theorem TaskStore.Holds.refutes (h : s.Holds taskId r) (hp : ¬ p r) : ∀ r', s.Holds taskId r' → ¬ p r' :=
  fun _ h' => h.unique h' ▸ hp

theorem looks_readCommittedFrom (hc : (∀ r, ¬ s.Holds taskId r) → C) :
    (discipline V).Looks V (readCommittedFrom taskId) s (fun r => s.Holds taskId r) C := by
  refine (looks_io _).bind fun _ _ => ?_
  refine .get_bind ?_
  have hfound : (discipline V).Looks V (lift (okOr (.notFound taskId) (s.records.lookup taskId))) s
      (fun r => s.records.lookup taskId = some r) C := by
    refine (Looks.lift ?_).mono (fun _ h => okOr_eq_ok.mp h) id
    intro e h
    obtain ⟨hnone, rfl⟩ := okOr_eq_error.mp h
    refine ⟨nofun, hc fun r hr => ?_⟩
    rw [hr.lookup_eq] at hnone
    cases hnone
  refine hfound.bind fun r hlookup => ?_
  -- the record under this id is `r`; a check it fails is a reason why none is held
  have hnot : ¬ (r.taskId = taskId ∧ Publishable r) → C := fun h => hc fun r' hr' => by
    cases some.inj (hr'.lookup_eq.symm.trans hlookup)
    exact h ⟨hr'.id_eq, hr'.publishable⟩
  refine (looks_io _).bind fun _ _ => (looks_io _).bind fun _ _ => ?_
  refine (looks_refuseIf fun h => hnot fun hr => absurd hr.2.2 (Nat.not_le.mpr h)).bind fun _ hlen => ?_
  have hvalid : (discipline V).Looks V (lift (validateRecord r)) s (fun _ => validateRecord r = .ok ()) C :=
    (Looks.lift fun e h => ⟨before_validateRecord h, hnot fun hr => by
      rw [hr.2.1] at h
      cases h⟩).mono (fun _ h => h) id
  refine hvalid.bind fun _ hv => ?_
  refine (looks_refuseIf fun h => hnot fun hr => h hr.1).bind fun _ hid => ?_
  exact .pure ⟨hlookup, not_ne_iff.mp hid, hv, Nat.le_of_not_lt hlen⟩

theorem looks_readRecord (hc : (∀ r, ¬ s.Holds taskId r) → C) :
    (discipline V).Looks V (readRecord taskId) s (fun r => s.Holds taskId r) C := by
  refine looks_checkDeadline.bind fun _ _ => looks_verifyRootAuthority.bind fun _ _ => ?_
  refine (looks_readCommittedFrom hc).bind fun r hr => ?_
  exact looks_checkDeadline.bind fun _ _ => looks_verifyRootAuthority.bind fun _ _ => .pure hr

omit [TaskCodec] in
/-- Removing a file that holds no record changes nothing but a quarantine a fault leaves behind. -/
theorem discardStaging_ends : Ends V discardStaging s (fun _ t => (discipline V).same s t)
    (fun _ t => (discipline V).same s t) fun t => (discipline V).same s t ∧ V .crash := by
  have hself := (discipline V).same_refl s
  refine .bind (.attempt (Q := fun _ t => t = s) rfl (fun _ => hself) fun h => ⟨hself, h⟩) ?_
  rintro _ s rfl
  refine .modify_bind ?_
  refine .bind (.attempt (Q := fun _ t => t = s.unstage.quarantine) rfl
    (fun h => ⟨rfl, rfl, .inr (.inl h)⟩) fun h => ⟨⟨rfl, rfl, .inr (.inr h)⟩, h⟩) ?_
  rintro _ _ rfl
  exact .modify ⟨rfl, rfl, .inl (Nat.add_sub_cancel _ 1)⟩

theorem stays_serializeRecordBounded
    (hc : ¬ Publishable r → C) : (discipline V).Looks V (serializeRecordBounded r) s
      (fun _ => recordLength r ≤ maxTaskRecordBytes) C := by
  refine looks_checkDeadline.bind fun _ _ => ?_
  refine (looks_refuseIf fun h => hc fun hr => absurd hr.2 (Nat.not_le.mpr h)).bind fun _ hlen => ?_
  exact (looks_io _).bind fun _ _ => looks_checkDeadline.mono (fun _ _ => Nat.le_of_not_lt hlen) id

theorem stays_stageRecord (hc : ¬ Publishable r → C) : (discipline V).Stays V (stageRecord r) s
      (fun _ _ => recordLength r ≤ maxTaskRecordBytes) C := by
  have hclean : ∀ t, ∀ t', (discipline V).same t t' → Ends V discardStaging t'
      (fun _ u => (discipline V).same t' u) (fun _ u => (discipline V).same t' u)
      fun u => (discipline V).same t' u ∧ V .crash := fun _ _ _ => discardStaging_ends
  refine .bind looks_checkDeadline fun _ t _ _ => ?_
  refine .bind looks_verifyRootAuthority fun _ t _ _ => ?_
  refine .bind (looks_io _) fun _ t _ _ => ?_
  refine .bind (.modify (P := fun _ _ => True) ⟨rfl, rfl, .inl rfl⟩ trivial) fun _ t _ _ => ?_
  refine .bind (looks_io _) fun _ t _ _ => ?_
  refine .bind ((looks_io _).cleaningUp (hclean t)) fun _ t _ _ => ?_
  refine .bind ((stays_serializeRecordBounded hc).cleaningUp (hclean t)) fun _ t _ hlen => ?_
  refine .bind ((looks_io _).cleaningUp (hclean t)) fun _ t _ _ => ?_
  refine .bind looks_checkDeadline fun _ t _ _ => ?_
  exact .mono looks_verifyRootAuthority (fun _ _ _ _ => hlen.2) id

omit [TaskCodec] in
theorem looks_renameStaged (hc : operation = .create → s.records.lookup r.taskId ≠ none → C) :
    (discipline V).Looks V (renameStaged r operation) s
      (fun _ => operation = .create → s.records.lookup r.taskId = none) C := by
  refine (looks_io _).bind fun _ _ => .get_bind ?_
  refine (looks_refuseIf fun h => hc h.1 (isSome_iff_ne_none.mp h.2)).mono ?_ id
  intro _ h hcreate
  by_contra hne
  exact h ⟨hcreate, isSome_iff_ne_none.mpr hne⟩

omit [TaskCodec] in
theorem confirmCommit_settles {write : Unit → TaskStore → Prop} (h : write () s) :
    Ends V (confirmCommit taskId operation) s write
      (fun e t => (discipline V).after e ∧ V .fail ∧ ∃ a, write a t) fun t => V .crash ∧ ∃ a, write a t := by
  have hstep : Ends V (attempt (.commitUncertain taskId operation) : TaskM Unit) s (fun _ t => t = s)
      (fun e t => (discipline V).after e ∧ V .fail ∧ ∃ a, write a t) fun t => V .crash ∧ ∃ a, write a t :=
    .attempt rfl (fun hv => ⟨.inl ⟨_, _, rfl⟩, hv, (), h⟩) fun hv => ⟨hv, (), h⟩
  refine .bind hstep ?_
  rintro _ _ rfl
  refine .bind hstep ?_
  rintro _ _ rfl
  refine .bind hstep ?_
  rintro _ _ rfl
  exact .mono hstep (fun _ _ heq => heq ▸ h) (fun _ _ h => h) fun _ h => h

/-- The one spec of a publication: the record is written over the id or nothing changes. -/
theorem publishRecord_updates
    (hc : ¬ (Publishable r ∧ (operation = .create → s.records.lookup r.taskId = none)) → C) :
    (discipline V).Updates V (publishRecord r operation) s (fun _ => False) C
      fun _ s' => s.Wrote V s' r ∧ (operation = .create → s.records.lookup r.taskId = none) := by
  have hvalid : (discipline V).Looks V (lift (validateRecord r)) s (fun _ => validateRecord r = .ok ()) C :=
    (Looks.lift fun e h => ⟨before_validateRecord h, hc fun hr => by
      rw [hr.1.1] at h
      cases h⟩).mono (fun _ h => h) id
  refine .look hvalid fun _ hv => ?_
  refine .after_stays (stays_stageRecord fun h => hc fun hr => h hr.1) fun _ t hst hlen => ?_
  have hrename : (discipline V).Stays V ((renameStaged r operation).cleaningUp discardStaging) t
      (fun _ u => u = t ∧ (operation = .create → t.records.lookup r.taskId = none)) C :=
    (looks_renameStaged fun hcreate hne => hc fun hr => hne (hst.1 ▸ hr.2 hcreate)).cleaningUp
      fun _ _ => discardStaging_ends
  refine .after_stays hrename ?_
  rintro _ t - ⟨rfl, habsent⟩
  have hwrote : s.Wrote V ((t.put r).know r.taskId) r := by
    refine ⟨?_, congrArg (insert r.taskId) hst.2.1, hst.2.2, hv, hlen⟩
    change t.records.insert r.taskId r = _
    rw [hst.1]
  have habsent' := hst.1 ▸ habsent
  exact .of_settled (modify_bind (confirmCommit_settles ⟨hwrote, habsent'⟩))

/-! ## The operations -/

omit [TaskCodec] in
theorem looks_nextVersion (hc : ¬ r.version + 1 < wordBound → C) :
    (discipline V).Looks V (lift (nextVersion r)) s
      (fun version => r.version + 1 < wordBound ∧ version = r.version + 1) C := by
  refine (Looks.lift ?_).mono (fun version h => ?_) id
  · intro e h
    obtain ⟨hnone, rfl⟩ := okOr_eq_error.mp h
    exact ⟨by nofun, hc (Nat.not_lt.mpr (checkedAdd_eq_none.mp hnone))⟩
  · obtain ⟨hlt, heq⟩ := checkedAdd_eq_some.mp (okOr_eq_ok.mp h)
    exact ⟨hlt, heq.symm⟩

omit [TaskCodec] in
theorem looks_matchesRecord (hc : r.identity ≠ identity → C) :
    (discipline V).Looks V (lift (refuseIf (¬ identity.matchesRecord r)
      (.mismatch identity.taskId .identity))) s (fun _ => r.identity = identity) C :=
  (looks_refuseIf fun h => hc fun heq => h (matchesRecord_iff.mpr heq.symm)).mono
    (fun _ h => (matchesRecord_iff.mp (not_not.mp h)).symm) id

omit [TaskCodec] in
theorem looks_validateExact (hc : ¬ (r.identity = identity ∧ r.version = version) → C) :
    (discipline V).Looks V (lift (validateExact r identity version)) s
      (fun _ => r.identity = identity ∧ r.version = version) C := by
  refine (Looks.lift ?_).mono (fun _ h => ?_) id
  · intro e h
    rcases bind_eq_error.mp h with h | ⟨_, -, h⟩
    · obtain ⟨hne, rfl⟩ := refuseIf_eq_error.mp h
      exact ⟨by nofun, hc fun heq => hne (matchesRecord_iff.mpr heq.1.symm)⟩
    · obtain ⟨hne, rfl⟩ := refuseIf_eq_error.mp h
      exact ⟨by nofun, hc fun heq => hne heq.2⟩
  · obtain ⟨hid, h⟩ := refuseIf_bind_eq_ok.mp h
    exact ⟨(matchesRecord_iff.mp (not_not.mp hid)).symm, not_ne_iff.mp (refuseIf_eq_ok.mp h)⟩

theorem get_looks :
    (discipline V).Looks V (readRecord taskId) s (fun r => s.Holds taskId r) (∀ r, ¬ s.Holds taskId r) :=
  looks_readRecord id

/-- The record is written as the operation's last step. -/
theorem publishing {α : Type} {keep : α → Prop} {write : α → TaskStore → Prop} {a : α}
    (hop : operation ≠ .create) (hc : ¬ Publishable r → C) (hw : ∀ s', s.Wrote V s' r → write a s') :
    (discipline V).Updates V (publishRecord r operation >>= fun _ => pure a) s keep C write := by
  refine (replying (publishRecord_updates ?_)).mono (fun _ h => h) id ?_
  · exact fun h => hc fun hr => h ⟨hr, fun hcreate => absurd hcreate hop⟩
  · rintro _ s' ⟨rfl, -, hwrote, -⟩
    exact hw s' hwrote

/-- An operation on the record the store holds refuses for what that record is. -/
theorem reading {α : Type} {f : V5StoredInvocationRecord → TaskM α} {keep : α → Prop}
    {write : α → TaskStore → Prop}
    (h : ∀ r, s.Holds taskId r → (discipline V).Updates V (f r) s keep (¬ p r) write) :
    (discipline V).Updates V (do lockWriter; f (← readRecord taskId)) s keep
      (∀ r, s.Holds taskId r → ¬ p r) write := by
  refine .look looks_lockWriter fun _ _ => ?_
  refine .look (looks_readRecord fun h r hr => absurd hr (h r)) fun r hr => ?_
  exact (h r hr).mono (fun _ h => h) hr.refutes fun _ _ h => h

theorem createExact_updates {new : NewV5InvocationRecord} :
    (discipline V).Updates V (createExact new now) s
      (fun a => new.identity.taskId ∈ s.known ∧ s.Holds new.identity.taskId a ∧ new.matchesRecord a = true)
      (if new.identity.taskId ∈ s.known then
        ∀ r, s.Holds new.identity.taskId r → ¬ new.matchesRecord r = true
      else ¬ (Publishable (new.intoStored now) ∧ s.records.lookup new.identity.taskId = none))
      fun a s' => new.identity.taskId ∉ s.known ∧ s.records.lookup new.identity.taskId = none
        ∧ a = new.intoStored now ∧ s.Wrote V s' a := by
  refine .look looks_lockWriter fun _ _ => ?_
  refine .look (get ⟨(discipline V).same_refl s, rfl, rfl⟩) ?_
  rintro _ rfl
  split
  case isTrue hknown =>
    refine .look (looks_readRecord fun h r hr => absurd hr (h r)) fun r hr => ?_
    refine .look (looks_refuseIf fun h => hr.refutes h) fun _ hmatch => ?_
    exact .pure ⟨hknown, hr, not_not.mp hmatch⟩
  case isFalse hknown =>
    refine (replying (publishRecord_updates ?_)).mono (fun _ h => h) id ?_
    · exact fun h hpub => h ⟨hpub.1, fun _ => hpub.2⟩
    · rintro a s' ⟨rfl, -, hwrote, habsent⟩
      exact ⟨hknown, habsent rfl, rfl, hwrote⟩

theorem requestCancelExact_updates :
    (discipline V).Updates V (requestCancelExact identity version now) s
      (fun a => s.Holds identity.taskId a ∧ a.identity = identity ∧ a.version = version
        ∧ a.cancelRequested = true)
      (∀ r, s.Holds identity.taskId r → ¬ (r.identity = identity ∧ r.version = version ∧
        (r.cancelRequested = false → r.version + 1 < wordBound ∧ Publishable (r.withCancel now))))
      fun a s' => ∃ r, s.Holds identity.taskId r ∧ r.identity = identity ∧ r.version = version
        ∧ r.cancelRequested = false ∧ a = r.withCancel now ∧ s.Wrote V s' a := by
  refine reading fun r hr => ?_
  refine .look (looks_validateExact fun h hp => h ⟨hp.1, hp.2.1⟩)
    fun _ hexact => ?_
  split
  case isTrue hcancel => exact .pure ⟨hr, hexact.1, hexact.2, hcancel⟩
  case isFalse hcancel =>
    have hfalse := Bool.eq_false_iff.mpr hcancel
    refine .look (looks_nextVersion fun h hp => h (hp.2.2 hfalse).1) ?_
    rintro _ ⟨-, rfl⟩
    exact publishing (by decide) (fun h hp => h (hp.2.2 hfalse).2) fun _ hwrote =>
      ⟨r, hr, hexact.1, hexact.2, hfalse, rfl, hwrote⟩

theorem startWorking_updates :
    (discipline V).Updates V (startWorkingIfNotCancelRequested identity version now) s
      (fun a => ∃ r, s.Holds identity.taskId r ∧ r.identity = identity
        ∧ (r.cancelRequested = true ∨ r.task.isTerminal = true) ∧ a = .cancelOrTerminalWinner r)
      (∀ r, s.Holds identity.taskId r → ¬ (r.identity = identity ∧
        (¬ (r.cancelRequested = true ∨ r.task.isTerminal = true) → r.version = version ∧ r.task = .queued
          ∧ r.version + 1 < wordBound ∧ Publishable (r.atWork now))))
      fun a s' => ∃ r, s.Holds identity.taskId r ∧ r.identity = identity ∧ r.version = version
        ∧ r.cancelRequested = false ∧ r.task = .queued ∧ a = .started (r.atWork now)
        ∧ s.Wrote V s' (r.atWork now) := by
  refine reading fun r hr => ?_
  refine .look (looks_matchesRecord fun h hp => h hp.1) fun _ hid => ?_
  split
  case isTrue hwinner => exact .pure ⟨r, hr, hid, hwinner, rfl⟩
  case isFalse hopen =>
    refine .look (looks_validateExact fun h hp => h ⟨hid, (hp.2 hopen).1⟩) fun _ hexact => ?_
    refine .look (looks_refuseIf fun h hp => h (hp.2 hopen).2.1) fun _ hqueued => ?_
    refine .look (looks_nextVersion fun h hp => h (hp.2 hopen).2.2.1) ?_
    rintro _ ⟨-, rfl⟩
    exact publishing (by decide) (fun h hp => h (hp.2 hopen).2.2.2) fun _ hwrote =>
      ⟨r, hr, hid, hexact.2, Bool.eq_false_iff.mpr fun h => hopen (.inl h), not_ne_iff.mp hqueued, rfl, hwrote⟩

theorem publishTerminalExact_updates {p : V5TerminalPublication} :
    (discipline V).Updates V (publishTerminalExact identity version p) s
      (fun a => s.Holds identity.taskId a ∧ a.identity = identity ∧ a.version = version + 1
        ∧ a.task = p.intoStoredTask) (∀ r, s.Holds identity.taskId r → ¬ (r.identity = identity ∧
        (r.task.isTerminal = true → version + 1 < wordBound ∧ r.version = version + 1
          ∧ r.task = p.intoStoredTask) ∧
        (r.task.isTerminal = false → r.version = version ∧ stateAcceptsPublication r p.status = true
          ∧ r.updatedAtEpochMs ≤ p.terminalEpochMs ∧ r.version + 1 < wordBound
          ∧ Publishable (r.finished p))))
      fun a s' => ∃ r, s.Holds identity.taskId r ∧ r.identity = identity ∧ r.version = version
        ∧ r.version + 1 < wordBound ∧ r.task.isTerminal = false ∧ stateAcceptsPublication r p.status = true
        ∧ r.updatedAtEpochMs ≤ p.terminalEpochMs ∧ a = r.finished p ∧ s.Wrote V s' a := by
  refine reading fun r hr => ?_
  refine .look (looks_matchesRecord fun h hp => h hp.1) fun _ hid => ?_
  split
  case isTrue hterminal =>
    refine .look (looks_refuseIf fun h hp => ?_) fun _ hagain => ?_
    · obtain ⟨hlt, hversion, htask⟩ := hp.2.1 hterminal
      exact h ⟨checkedAdd_eq_some.mpr ⟨hlt, hversion.symm⟩, matchesTask_iff.mpr htask⟩
    · obtain ⟨hversion, htask⟩ := not_not.mp hagain
      exact .pure ⟨hr, hid, (checkedAdd_eq_some.mp hversion).2.symm,
        matchesTask_iff.mp htask⟩
  case isFalse hactive =>
    have hfalse := Bool.eq_false_iff.mpr hactive
    refine .look (looks_validateExact fun h hp => h ⟨hid, (hp.2.2 hfalse).1⟩) fun _ hexact => ?_
    refine .look (looks_refuseIf fun h hp => h (hp.2.2 hfalse).2.1) fun _ haccepts => ?_
    refine .look (looks_refuseIf fun h hp => absurd (hp.2.2 hfalse).2.2.1 (Nat.not_le.mpr h))
      fun _ hepoch => ?_
    refine .look (looks_nextVersion fun h hp => h (hp.2.2 hfalse).2.2.2.1) ?_
    rintro _ ⟨hlt, rfl⟩
    exact publishing (by decide) (fun h hp => h (hp.2.2 hfalse).2.2.2.2) fun _ hwrote =>
      ⟨r, hr, hid, hexact.2, hlt, hfalse, not_not.mp haccepts, Nat.le_of_not_lt hepoch, rfl, hwrote⟩

theorem publishStagedTerminal_updates {expected : V5StoredInvocationRecord} {p : V5TerminalPublication} :
    (discipline V).Updates V (publishStagedTerminalAgainstExactProvisional expected p) s
      (fun a => s.Holds expected.taskId a ∧ a = expected.finished p)
      (∀ r, s.Holds expected.taskId r → ¬ (expected.task.isTerminal = false
        ∧ expected.updatedAtEpochMs ≤ p.terminalEpochMs ∧ expected.version + 1 < wordBound
        ∧ (r = expected.finished p ∨ r = expected) ∧ Publishable (expected.finished p)))
      fun a s' => s.Holds expected.taskId expected ∧ expected.version + 1 < wordBound
        ∧ expected.task.isTerminal = false ∧ expected.updatedAtEpochMs ≤ p.terminalEpochMs
        ∧ a = expected.finished p ∧ s.Wrote V s' a := by
  refine reading fun r hr => ?_
  refine .look (looks_refuseIf fun h hp => ?_) fun _ hstate => ?_
  · rcases h with h | h
    · exact absurd h (by simp [hp.1])
    · exact absurd hp.2.1 (Nat.not_le.mpr h)
  obtain ⟨hactive, hepoch⟩ := not_or.mp hstate
  have hfalse := Bool.eq_false_iff.mpr hactive
  refine .look (looks_nextVersion fun h hp => h hp.2.2.1) ?_
  rintro _ ⟨hlt, rfl⟩
  dsimp only
  split
  case isTrue hsuccessor => exact .pure ⟨hr, hsuccessor⟩
  case isFalse hfresh =>
    refine .look (looks_refuseIf fun h hp => hp.2.2.2.1.elim hfresh h) fun _ hsame => ?_
    obtain rfl := not_ne_iff.mp hsame
    exact publishing (by decide) (fun h hp => h hp.2.2.2.2) fun _ hwrote =>
      ⟨hr, hlt, hfalse, Nat.le_of_not_lt hepoch, rfl, hwrote⟩

/-- A recovery terminal always has its canonical form. -/
theorem looks_recoveryDigest :
    (discipline V).Looks V (lift (okOr (.corrupt "canonical recovery terminal could not be encoded")
      (terminalDigest reason.outcome))) s
      (fun digest => terminalDigest reason.outcome = some digest) C := by
  refine (Looks.lift ?_).mono (fun _ h => okOr_eq_ok.mp h) id
  intro e h
  have hsome := terminalDigest_isSome reason.outcome (by cases reason <;> nofun)
  rw [(okOr_eq_error.mp h).1] at hsome
  cases hsome

theorem terminalizeRecoveredExact_updates :
    (discipline V).Updates V (terminalizeRecoveredExact identity version reason now) s
      (fun a => s.Holds identity.taskId a ∧ a.identity = identity ∧ a.version = version + 1
        ∧ reason.matchesTask a.task = true) (∀ r, s.Holds identity.taskId r → ¬ (r.identity = identity ∧
        (r.task.isTerminal = true → version + 1 < wordBound ∧ r.version = version + 1
          ∧ reason.matchesTask r.task = true) ∧
        (r.task.isTerminal = false → r.version = version ∧ reason.validState r = true
          ∧ r.version + 1 < wordBound ∧ ∀ digest, Publishable (r.recovered reason digest now))))
      fun a s' => ∃ r digest, s.Holds identity.taskId r ∧ r.identity = identity ∧ r.version = version
        ∧ r.version + 1 < wordBound ∧ r.task.isTerminal = false ∧ reason.validState r = true
        ∧ terminalDigest reason.outcome = some digest
        ∧ a = r.recovered reason digest now ∧ s.Wrote V s' a := by
  refine reading fun r hr => ?_
  refine .look (looks_matchesRecord fun h hp => h hp.1) fun _ hid => ?_
  split
  case isTrue hterminal =>
    refine .look (looks_refuseIf fun h hp => ?_) fun _ hagain => ?_
    · obtain ⟨hlt, hversion, htask⟩ := hp.2.1 hterminal
      exact h ⟨checkedAdd_eq_some.mpr ⟨hlt, hversion.symm⟩, htask⟩
    · obtain ⟨hversion, htask⟩ := not_not.mp hagain
      exact .pure ⟨hr, hid, (checkedAdd_eq_some.mp hversion).2.symm, htask⟩
  case isFalse hactive =>
    have hfalse := Bool.eq_false_iff.mpr hactive
    refine .look (looks_validateExact fun h hp => h ⟨hid, (hp.2.2 hfalse).1⟩) fun _ hexact => ?_
    refine .look (looks_refuseIf fun h hp => h (hp.2.2 hfalse).2.1) fun _ hvalid => ?_
    refine .look looks_recoveryDigest fun digest hdigest => ?_
    refine .look (looks_nextVersion fun h hp => h (hp.2.2 hfalse).2.2.1) ?_
    rintro _ ⟨hlt, rfl⟩
    exact publishing (by decide) (fun h hp => h ((hp.2.2 hfalse).2.2.2 digest)) fun _ hwrote =>
      ⟨r, digest, hr, hid, hexact.2, hlt, hfalse, not_not.mp hvalid, hdigest, rfl, hwrote⟩

/-- The retirement names the record exactly and the record has outlived its ttl. -/
structure V5TaskRetirement.Expires (retirement : V5TaskRetirement) (observedAtEpochMs : EpochMs)
    (r : V5StoredInvocationRecord) : Prop where
  matches_record : retirement.matchesTerminalRecord r = true
  terminal : r.task.isTerminal = true
  expired : r.updatedAtEpochMs + r.ttlMs ≤ observedAtEpochMs

/-- The record's name is gone. -/
structure TaskStore.Removed (V : Verdict → Prop) (s s' : TaskStore) (taskId : TaskId) : Prop where
  records_eq : s'.records = s.records.erase taskId
  known_eq : s'.known = s.known.erase taskId ∨ (s'.known = s.known ∧ (V .fail ∨ V .crash))
  quarantined_eq : s'.quarantined = s.quarantined ∨ V .fail ∨ V .crash

omit [TaskCodec] in
theorem V5TaskRetirement.matchesTerminalRecord_iff : retirement.matchesTerminalRecord r = true ↔
      r.identity = retirement.identity ∧ r.version = retirement.expectedTerminalVersion
        ∧ r.task.status = retirement.terminalStatus
        ∧ r.task.terminalDigest = some retirement.terminalDigest := by
  simp only [matchesTerminalRecord, Bool.and_eq_true, matchesRecord_iff, decide_eq_true_eq,
    and_assoc]
  exact ⟨fun h => ⟨h.1.symm, h.2.1.symm, h.2.2.1.symm, h.2.2.2⟩,
    fun h => ⟨h.1.symm, h.2.1.symm, h.2.2.1.symm, h.2.2.2⟩⟩

/-- What an error of a read says about the file. -/
def NotFoundMeansAbsent (V : Verdict → Prop) (s : TaskStore) (taskId : TaskId) (e : V5TaskStoreError) : Prop :=
  (∀ taskId', e = .notFound taskId' → s.records.lookup taskId = none)
    ∧ (s.records.lookup taskId = none → e = .notFound taskId ∨ V .fail)

/-- A step of a read: the store is left alone, and only an absent file is reported as not found. -/
def Reports (V : Verdict → Prop) (s : TaskStore) (taskId : TaskId) {α : Type} (m : TaskM α) : Prop :=
  Ends V m s (fun _ t => t = s) (fun e t => t = s ∧ NotFoundMeansAbsent V s taskId e) fun t => t = s

omit [TaskCodec] in
theorem Reports.bind {α β : Type} {m : TaskM α} {f : α → TaskM β} (hm : Reports V s taskId m)
    (hf : ∀ a, Reports V s taskId (f a)) : Reports V s taskId (m >>= f) := by
  refine Ends.bind hm ?_
  rintro a _ rfl
  exact hf a

theorem readRecord_notFound : Reports V s taskId (readRecord taskId) := by
  have hattempt (e : V5TaskStoreError) (he : ∀ taskId', e ≠ .notFound taskId') :
      Reports V s taskId (attempt e) :=
    attempt rfl (fun hv => ⟨rfl, fun _ h => absurd h (he _), fun _ => .inr hv⟩) fun _ => rfl
  have hauthority : Reports V s taskId verifyRootAuthority :=
    .bind (hattempt _ nofun) fun _ => hattempt _ nofun
  have hcommitted : Reports V s taskId (readCommittedFrom taskId) := by
    refine .bind (hattempt _ nofun) fun _ => get_bind ?_
    cases hlookup : s.records.lookup taskId with
    | none => exact throw ⟨rfl, fun _ _ => hlookup, fun _ => .inl rfl⟩
    | some r =>
      have hlift {α : Type} (x : Except V5TaskStoreError α)
          (hx : ∀ e, x = .error e → ∀ taskId', e ≠ .notFound taskId') : Reports V s taskId (lift x) := by
        cases x with
        | ok a => exact pure rfl
        | error e =>
          refine throw ⟨rfl, fun _ h => absurd h (hx e rfl _), fun h => ?_⟩
          rw [hlookup] at h
          cases h
      refine Reports.bind (hlift (okOr _ (some r)) nofun) fun found => ?_
      refine .bind (hattempt _ nofun) fun _ => .bind (hattempt _ nofun) fun _ => ?_
      refine .bind (hlift _ fun e h => (refuseIf_eq_error.mp h).2 ▸ nofun) fun _ => ?_
      refine .bind (hlift _ fun e h => ?_) fun _ => ?_
      · rcases validateRecord_error h with ⟨message, rfl⟩ | ⟨bytes, rfl⟩ <;> exact nofun
      refine .bind (hlift _ fun e h => (refuseIf_eq_error.mp h).2 ▸ nofun) fun _ => ?_
      exact pure rfl
  refine .bind (hattempt _ nofun) fun _ => .bind hauthority fun _ => .bind hcommitted fun _ => ?_
  exact .bind (hattempt _ nofun) fun _ => .bind hauthority fun _ => pure rfl

omit [TaskCodec] in
/-- Removing a record's file hides it at once; a fault after that leaves its quarantine. -/
theorem hideRecord_updates :
    (discipline V).Updates V (removeStateRegularChild (TaskStore.hide taskId)
      "delete protocol-v5 terminal task record") s (fun _ => False) C
      fun _ s' => s'.records = s.records.erase taskId ∧ s'.known = s.known
        ∧ (s'.quarantined = s.quarantined ∨ V .fail ∨ V .crash) := by
  refine .look (looks_io _) fun _ _ => ?_
  refine .of_settled (modify_bind ?_)
  refine .bind (.attempt (Q := fun _ t => t = (s.hide taskId).quarantine) rfl
    (fun hv => ⟨.inr rfl, hv, (), rfl, rfl, .inr (.inl hv)⟩)
    fun hv => ⟨hv, (), rfl, rfl, .inr (.inr hv)⟩) ?_
  rintro _ _ rfl
  exact .modify ⟨rfl, rfl, .inl (Nat.add_sub_cancel _ 1)⟩

omit [TaskCodec] in
theorem deleteTerminalRecord_updates :
    (discipline V).Updates V (deleteTerminalRecord retirement) s (fun _ => False) C
      fun _ s' => s.Removed V s' retirement.identity.taskId := by
  unfold deleteTerminalRecord
  refine .look looks_checkDeadline fun _ _ => ?_
  refine .look looks_verifyRootAuthority fun _ _ => ?_
  refine .look (looks_io _) fun _ _ => .look (looks_io _) fun _ _ => ?_
  refine .look (looks_io _) fun _ _ => ?_
  refine .look looks_checkDeadline fun _ _ => ?_
  refine .look looks_verifyRootAuthority fun _ _ => ?_
  refine .settle hideRecord_updates ?_ ?_
  · rintro hv _ s' ⟨hrecords, hknown, hquarantined⟩
    exact ⟨(), hrecords, .inr ⟨hknown, hv⟩, hquarantined⟩
  · rintro _ s' ⟨hrecords, hknown, hquarantined⟩
    have hremoved : s.Removed V (s'.forget retirement.identity.taskId) retirement.identity.taskId :=
      ⟨hrecords, .inl (congrArg (·.erase retirement.identity.taskId) hknown), hquarantined⟩
    exact .modify_bind (confirmCommit_settles hremoved)

theorem deleteTerminalIfExpired_updates {observed : EpochMs} :
    (discipline V).Updates V (deleteTerminalIfExpired retirement observed) s
      (fun a => a = .alreadyAbsent retirement ∧ s.records.lookup retirement.identity.taskId = none)
      (∃ r, s.records.lookup retirement.identity.taskId = some r
        ∧ ¬ (s.Holds retirement.identity.taskId r ∧ retirement.Expires observed r))
      fun a s' => a = .deleted retirement ∧ (∃ r, s.Holds retirement.identity.taskId r
        ∧ retirement.Expires observed r) ∧ s.Removed V s' retirement.identity.taskId := by
  refine .look looks_lockWriter fun _ _ => ?_
  have hread : Ends V (readRecord retirement.identity.taskId) s
      (fun r s' => s' = s ∧ s.Holds retirement.identity.taskId r)
      (fun e s' => (discipline V).same s s' ∧ (discipline V).before e
        ∧ (V .fail ∨ ∀ r, ¬ s.Holds retirement.identity.taskId r)
        ∧ NotFoundMeansAbsent V s retirement.identity.taskId e)
      fun s' => (discipline V).same s s' ∧ V .crash :=
    mono (and get_looks readRecord_notFound) (fun _ _ h => h.1.2)
      (fun _ _ h => ⟨h.1.1, h.1.2.1, h.1.2.2, h.2.2⟩) fun _ h => h.1
  refine .look_reify hread ?_ ?_
  · intro r hr
    have hrefuse : ¬ retirement.Expires observed r → ∃ r, s.records.lookup retirement.identity.taskId = some r
        ∧ ¬ (s.Holds retirement.identity.taskId r ∧ retirement.Expires observed r) :=
      fun h => ⟨r, hr.lookup_eq, fun hp => h hp.2⟩
    have hexact : retirement.Expires observed r → r.identity = retirement.identity
        ∧ r.version = retirement.expectedTerminalVersion := fun h =>
      let hmatch := V5TaskRetirement.matchesTerminalRecord_iff.mp h.matches_record
      ⟨hmatch.1, hmatch.2.1⟩
    refine .look (looks_matchesRecord fun h => hrefuse fun hp => h (hexact hp).1) fun _ _ => ?_
    refine .look (looks_refuseIf fun h => hrefuse fun hp => h (hexact hp).2)
      fun _ _ => ?_
    refine .look (looks_refuseIf fun h => hrefuse fun hp => h ?_) fun _ hstate => ?_
    · refine ⟨hp.terminal, hp.matches_record, ?_⟩
      have hle := hp.expired
      have hsub := checkedSub_eq_some.mpr ⟨Nat.le_of_add_right_le hle, rfl⟩
      rw [hsub, any_some, decide_eq_true_eq]
      exact Nat.le_sub_of_add_le' hle
    · obtain ⟨hterminal, hmatches, hexpired⟩ := not_not.mp hstate
      have hle : r.updatedAtEpochMs + r.ttlMs ≤ observed := by
        obtain ⟨elapsed, hsub, hel⟩ := (any_eq_true _ _).mp hexpired
        obtain ⟨hle, rfl⟩ := checkedSub_eq_some.mp hsub
        exact Nat.add_le_of_le_sub' hle (of_decide_eq_true hel)
      refine (replying deleteTerminalRecord_updates).mono (fun _ h => h) id ?_
      rintro a s' ⟨rfl, -, hremoved⟩
      exact ⟨rfl, ⟨r, hr, hmatches, hterminal, hle⟩, hremoved⟩
  · rintro e s' hsame ⟨hbefore, hcause, habsent, hpresent⟩
    -- any other error is returned as it is, and without a fault the file is there but unreadable
    have hother : (∀ taskId, e ≠ .notFound taskId) → V .fail ∨ ∃ r,
        s.records.lookup retirement.identity.taskId = some r
          ∧ ¬ (s.Holds retirement.identity.taskId r ∧ retirement.Expires observed r) := by
      intro hne
      rcases hcause with hv | hnone
      · exact .inl hv
      cases hlookup : s.records.lookup retirement.identity.taskId with
      | none => exact .inl ((hpresent hlookup).resolve_left (hne _))
      | some r => exact .inr ⟨r, rfl, fun h => hnone r h.1⟩
    cases e with
    | notFound taskId => exact .pure ⟨rfl, habsent taskId rfl⟩
    | _ => exact .throw (.inl ⟨(discipline V).same_refl s', hbefore, hother nofun⟩)

end Specifications

end Unica.Task
