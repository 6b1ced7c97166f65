import Unica.Link.Spec

/-!
# The mutations, one by one

Each plan is read backwards: which link must be in the catalog, which link takes its
place, and that no other link is touched. With `mutate_mutates` this is the whole
specification of a mutation.
-/

namespace Unica.Link

open Lib Receipt Prog Discipline LinkCatalog Option Finmap

/-! ## A plan never reports an uncertain commit -/

variable {α β : Type} {e : LinkStoreError}

def Refuses (x : Except LinkStoreError α) : Prop :=
  ∀ e, x = .error e → ∀ keyDigest, e ≠ .commitUncertain keyDigest

namespace Refuses

theorem ok {a : α} : Refuses (.ok a : Except LinkStoreError α) := nofun

theorem error (h : ∀ keyDigest, e ≠ .commitUncertain keyDigest) :
    Refuses (.error e : Except LinkStoreError α) := by
  intro e' he
  cases he
  exact h

theorem bind {x : Except LinkStoreError α} {f : α → Except LinkStoreError β} (hx : Refuses x)
    (hf : ∀ a, Refuses (f a)) : Refuses (x >>= f) := by
  intro e he
  rcases bind_eq_error.mp he with he | ⟨a, -, he⟩
  · exact hx e he
  · exact hf a e he

theorem refuseIf {p : Prop} [Decidable p]
    (h : ∀ keyDigest, e ≠ .commitUncertain keyDigest) : Refuses (refuseIf p e) := by
  intro e' he
  exact (refuseIf_eq_error.mp he).2 ▸ h

theorem okOr {o : Option α} (h : ∀ keyDigest, e ≠ .commitUncertain keyDigest) : Refuses (okOr e o) := by
  intro e' he
  exact (okOr_eq_error.mp he).2 ▸ h

end Refuses

theorem refuses_nextSequence (n : Nat) : Refuses (nextSequence n) := .okOr nofun

theorem refuses_applicationCorruption (x : Except ReceiptLedgerError α) :
    Refuses (applicationCorruption x) := by
  cases x with
  | ok _ => exact .ok
  | error _ => exact .error nofun

variable [ReceiptCodec] {V : Verdict → Prop} {s : LinkStore} {c next : LinkCatalog}
variable {task : ReceiptTaskProjection} {taskRecordVersion : Nat} {expected record : TaskBoundReceipt}
  {key : ReceiptKey} {phase : AttemptPhase} {link : TaskLinkIdentity} {bindEpochMs : EpochMs}
  {reservation : TaskLinkReservation} {invocationBytes taskBytes : Nat} {status : ClosedTerminalStatus}
  {updatedAtEpochMs : EpochMs} {terminalEpochMs : EpochMs} {digest : TerminalDigest}

theorem refuses_measured (entry : α → LinkEntry) (make : Nat → Except ReceiptLedgerError α) :
    Refuses (measured entry make) :=
  (refuses_applicationCorruption _).bind fun _ => .bind (.refuseIf nofun) fun _ =>
    refuses_applicationCorruption _

theorem refuses_planEntry {entry : α → LinkEntry} {build : Nat → Except LinkStoreError α}
    (h : ∀ sequence, Refuses (build sequence)) : Refuses (planEntry c entry build) :=
  (refuses_nextSequence _).bind fun sequence => (h sequence).bind fun _ =>
    .bind (.bind (.refuseIf nofun) fun _ => .ok) fun _ => .ok

theorem refuses_exactLink (expected : TaskLifecycleLinkRecord) : Refuses (exactLink c expected) := by
  refine .bind (.okOr nofun) fun entry => ?_
  cases entry with
  | reservation _ => exact .error nofun
  | link record => exact .bind (.refuseIf nofun) fun _ => .refuseIf nofun

theorem refuses_planBoundSuccessor (expected : TaskBoundReceipt) (task : ReceiptTaskProjection)
    (phase : AttemptPhase) : Refuses (planBoundSuccessor expected task phase c) :=
  refuses_planEntry fun _ => (refuses_nextSequence _).bind fun _ => refuses_measured _ _

/-! ## The plans read backwards -/

/-- The next catalog has the link under the key and leaves every other link alone. -/
structure Inserts (c next : LinkCatalog) (entry : LinkEntry) : Prop where
  plans : Plans c entry.keyDigest next
  lookup_eq : next.entries.lookup entry.keyDigest = some entry
  sequence_eq : next.mutationSequence = c.mutationSequence + 1
  newest : entry.header.mutationSequence = c.mutationSequence + 1

section Plans

variable {α : Type} {entry : α → LinkEntry} {build : Nat → Except LinkStoreError α} {a : α}

theorem planEntry_ok (h : planEntry c entry build = .ok (next, a)) :
    c.mutationSequence + 1 < wordBound ∧ build (c.mutationSequence + 1) = .ok a
      ∧ ¬ c.taken (entry a).header.key (entry a).keyDigest
      ∧ next = put { c with mutationSequence := c.mutationSequence + 1 } (entry a) := by
  obtain ⟨sequence, hsequence, h⟩ := bind_eq_ok.mp h
  obtain ⟨hlt, rfl⟩ := nextSequence_eq_ok.mp hsequence
  obtain ⟨built, hbuilt, h⟩ := bind_eq_ok.mp h
  obtain ⟨inserted, hinserted, h⟩ := bind_eq_ok.mp h
  cases h
  obtain ⟨hfree, rfl⟩ := insertExact_eq_ok.mp hinserted
  exact ⟨hlt, hbuilt, hfree, rfl⟩

/-- A plan succeeds where there is a next sequence, the link can be built and its identities are
free or its own. -/
theorem planEntry_succeeds (hlt : c.mutationSequence + 1 < wordBound)
    (hbuild : build (c.mutationSequence + 1) = .ok a)
    (hfree : ¬ c.taken (entry a).header.key (entry a).keyDigest) :
    ∃ next, planEntry c entry build = .ok (next, a) := by
  refine ⟨put { c with mutationSequence := c.mutationSequence + 1 } (entry a),
    bind_eq_ok.mpr ⟨_, nextSequence_eq_ok.mpr ⟨hlt, rfl⟩, ?_⟩⟩
  refine bind_eq_ok.mpr ⟨a, hbuild, ?_⟩
  exact bind_eq_ok.mpr ⟨_, insertExact_eq_ok.mpr ⟨hfree, rfl⟩, rfl⟩

theorem planEntry_inserts (hc : c.Sound) (h : planEntry c entry build = .ok (next, a))
    (hstamped : (entry a).Stamped) (hsequence : (entry a).header.mutationSequence = c.mutationSequence + 1)
    (hold : ∀ old, c.entries.lookup (entry a).keyDigest = some old →
      old.header.key = (entry a).header.key) : Inserts c next (entry a) := by
  obtain ⟨-, -, hfree, rfl⟩ := planEntry_ok h
  have hadvanced := hc.advance (Nat.le_succ _)
  have hsound := hadvanced.put hfree hstamped (Nat.le_of_eq hsequence) hold
  exact ⟨⟨hsound, fun d hd => lookup_put_of_ne hd⟩, lookup_put, rfl, hsequence⟩

theorem exactLink_eq_ok {expected : TaskLifecycleLinkRecord} : exactLink c expected = .ok () ↔
    c.entries.lookup (receiptKeyDigest expected.header.key) = some (.link expected) := by
  rw [exactLink, okOr_bind_eq_ok]
  constructor
  · rintro ⟨found, hfound, h⟩
    cases found with
    | reservation _ => cases h
    | link record =>
      obtain ⟨-, h⟩ := refuseIf_bind_eq_ok.mp h
      rw [hfound, not_ne_iff.mp (refuseIf_eq_ok.mp h)]
  · intro hfound
    refine ⟨_, hfound, refuseIf_bind_eq_ok.mpr ⟨not_ne_iff.mpr rfl, ?_⟩⟩
    exact refuseIf_eq_ok.mpr (not_ne_iff.mpr rfl)

/-- The digest a link is kept under, from its header. -/
theorem keyDigest_of_key {e : LinkEntry} (h : e.header.key = key) : e.keyDigest = receiptKeyDigest key :=
  congrArg receiptKeyDigest h

section

variable (hc : c.Sound)
include hc

theorem planReservation_ok {held : TaskLinkReservation}
    (habsent : c.entries.lookup (receiptKeyDigest key) = none)
    (h : planReservation key link c = .ok (next, held)) :
    Inserts c next (.reservation held) ∧ held.header.key = key := by
  obtain ⟨-, h⟩ := refuseIf_bind_eq_ok.mp h
  obtain ⟨-, hbuild, -, -⟩ := planEntry_ok h
  obtain ⟨hstamped, hhas, -⟩ := measured_ok finishes_reservation hbuild
  have hkey : held.header.key = key := hhas.key_eq
  refine ⟨planEntry_inserts hc h hstamped hhas.sequence_eq fun old hold => ?_, hkey⟩
  rw [keyDigest_of_key (e := .reservation held) hkey, habsent] at hold
  cases hold

/-- A TaskBound built in place of a link of the same key. -/
theorem planEntry_taskBound {current : Nat} {old : LinkEntry}
    (hold : c.entries.lookup (receiptKeyDigest key) = some old) (hkey : old.header.key = key)
    (h : planEntry c (fun record => .link (.taskBound record)) (fun sequence => do
      let version ← nextSequence current
      buildTaskBound key link task version sequence taskRecordVersion bindEpochMs phase)
      = .ok (next, record)) :
    Inserts c next (.link (.taskBound record)) ∧ record.record.key = key ∧ record.record.link = link
      ∧ record.record.lifecycleLinkVersion = current + 1 ∧ record.task = task
      ∧ record.taskRecordVersion = taskRecordVersion ∧ record.bindEpochMs = bindEpochMs
      ∧ record.phase = phase := by
  obtain ⟨-, hbuild, -, -⟩ := planEntry_ok h
  obtain ⟨version, hversion, hbuild⟩ := bind_eq_ok.mp hbuild
  obtain ⟨-, rfl⟩ := nextSequence_eq_ok.mp hversion
  obtain ⟨hstamped, hhas, hfinish⟩ := measured_ok (finishes_taskBound _ _ _ _) hbuild
  obtain ⟨-, htask, hrecordVersion, hbind, hphase⟩ := TaskBoundReceipt.new_ok hfinish
  have hrecord : record.record.key = key := hhas.key_eq
  have hsame : ∀ found, c.entries.lookup (LinkEntry.link (.taskBound record)).keyDigest = some found →
      found.header.key = record.record.key := by
    intro found hfound
    rw [keyDigest_of_key (e := .link (.taskBound record)) hrecord, hold] at hfound
    cases hfound
    exact hkey.trans hrecord.symm
  have hinserts := planEntry_inserts hc h hstamped hhas.sequence_eq hsame
  exact ⟨hinserts, hrecord, hhas.link_eq, hhas.version_eq, htask, hrecordVersion, hbind, hphase⟩

theorem planTaskBound_ok
    (h : planTaskBound reservation task taskRecordVersion bindEpochMs phase c = .ok (next, record)) :
    Inserts c next (.link (.taskBound record)) ∧ record.record.key = reservation.header.key
      ∧ record.record.link = reservation.header.link ∧ record.task = task ∧ record.phase = phase := by
  obtain ⟨hfound, h⟩ := refuseIf_bind_eq_ok.mp h
  obtain ⟨hinserts, hkey, hlink, -, htask, -, -, hphase⟩ :=
    planEntry_taskBound hc (not_ne_iff.mp hfound) rfl h
  exact ⟨hinserts, hkey, hlink, htask, hphase⟩

theorem planBoundSuccessor_ok (hfound : c.entries.lookup (receiptKeyDigest expected.record.key)
      = some (.link (.taskBound expected)))
    (h : planBoundSuccessor expected task phase c = .ok (next, record)) :
    Inserts c next (.link (.taskBound record)) ∧ record.record.key = expected.record.key
      ∧ record.record.link = expected.record.link ∧ record.task = task ∧ record.phase = phase := by
  obtain ⟨hinserts, hkey, hlink, -, htask, -, -, hphase⟩ := planEntry_taskBound hc hfound rfl h
  exact ⟨hinserts, hkey, hlink, htask, hphase⟩

theorem planBegun_ok (h : planBegun expected taskRecordVersion updatedAtEpochMs c = .ok (next, record)) :
    c.entries.lookup (receiptKeyDigest expected.record.key) = some (.link (.taskBound expected))
      ∧ Inserts c next (.link (.taskBound record)) ∧ record.record.key = expected.record.key
      ∧ record.record.link = expected.record.link
      ∧ record.task.toStoredTask
        = { expected.task.toStoredTask with updatedAtEpochMs, version := taskRecordVersion }
      ∧ record.phase = .begun := by
  obtain ⟨_, hexact, h⟩ := bind_eq_ok.mp h
  have hfound := exactLink_eq_ok.mp hexact
  obtain ⟨task, htask, h⟩ := bind_eq_ok.mp h
  obtain ⟨hinserts, hkey, hlink, rfl, hphase⟩ := planBoundSuccessor_ok hc hfound h
  exact ⟨hfound, hinserts, hkey, hlink, taskProjection_new_ok (applicationCorruption_eq_ok.mp htask), hphase⟩

theorem planRefreshed_ok (h : planRefreshed expected task c = .ok (next, record)) :
    c.entries.lookup (receiptKeyDigest expected.record.key) = some (.link (.taskBound expected))
      ∧ Inserts c next (.link (.taskBound record)) ∧ record.record.key = expected.record.key
      ∧ record.record.link = expected.record.link ∧ record.task = task
      ∧ record.phase = expected.phase := by
  obtain ⟨_, hexact, h⟩ := bind_eq_ok.mp h
  have hfound := exactLink_eq_ok.mp hexact
  obtain ⟨hinserts, hkey, hlink, htask, hphase⟩ := planBoundSuccessor_ok hc hfound h
  exact ⟨hfound, hinserts, hkey, hlink, htask, hphase⟩

theorem planTerminalBound_ok {record : TaskTerminalBoundReceipt}
    (h : planTerminalBound expected task taskRecordVersion status digest terminalEpochMs c
      = .ok (next, record)) :
    c.entries.lookup (receiptKeyDigest expected.record.key) = some (.link (.taskBound expected))
      ∧ Inserts c next (.link (.taskTerminalBound record)) ∧ record.record.key = expected.record.key
      ∧ record.record.link = expected.record.link ∧ record.task = task
      ∧ record.taskRecordVersion = taskRecordVersion ∧ record.terminalStatus = status
      ∧ record.terminalDigest = digest ∧ record.terminalEpochMs = terminalEpochMs := by
  obtain ⟨_, hexact, h⟩ := bind_eq_ok.mp h
  have hfound := exactLink_eq_ok.mp hexact
  obtain ⟨-, hbuild, -, -⟩ := planEntry_ok h
  obtain ⟨expiry, -, hbuild⟩ := bind_eq_ok.mp hbuild
  obtain ⟨version, -, hbuild⟩ := bind_eq_ok.mp hbuild
  obtain ⟨hstamped, hhas, hfinish⟩ := measured_ok (finishes_taskTerminalBound _ _ _ _ _ _) hbuild
  obtain ⟨-, htask, hrecordVersion, hstatus, hdigest, hepoch, -⟩ := TaskTerminalBoundReceipt.new_ok hfinish
  have hkey := hhas.key_eq
  have hsame : ∀ old, c.entries.lookup (LinkEntry.link (.taskTerminalBound record)).keyDigest = some old →
      old.header.key = record.record.key := by
    intro old hold
    rw [keyDigest_of_key (e := .link (.taskTerminalBound record)) hkey] at hold
    cases some.inj (hold.symm.trans hfound)
    exact hkey.symm
  have hinserts := planEntry_inserts hc h hstamped hhas.sequence_eq hsame
  exact ⟨hfound, hinserts, hkey, hhas.link_eq, htask, hrecordVersion, hstatus, hdigest, hepoch⟩

theorem planRetirement_ok {expected : TaskTerminalBoundReceipt} {record : TaskRetirementPendingReceipt}
    (h : planRetirement expected invocationBytes taskBytes c = .ok (next, record)) :
    c.entries.lookup (receiptKeyDigest expected.record.key)
        = some (.link (.taskTerminalBound expected))
      ∧ Inserts c next (.link (.taskRetirementPending record)) ∧ record.record.key = expected.record.key
      ∧ record.record.link = expected.record.link ∧ record.task = expected.task
      ∧ record.expectedTerminalTaskVersion = expected.taskRecordVersion
      ∧ record.terminalStatus = expected.terminalStatus ∧ record.terminalDigest = expected.terminalDigest
      ∧ record.terminalEpochMs = expected.terminalEpochMs := by
  obtain ⟨_, hexact, h⟩ := bind_eq_ok.mp h
  have hfound := exactLink_eq_ok.mp hexact
  obtain ⟨-, hbuild, -, -⟩ := planEntry_ok h
  obtain ⟨version, -, hbuild⟩ := bind_eq_ok.mp hbuild
  obtain ⟨accounting, -, hbuild⟩ := bind_eq_ok.mp hbuild
  obtain ⟨hstamped, hhas, hfinish⟩ :=
    measured_ok (finishes_taskRetirementPending _ _ _ _ _ _ _ _) hbuild
  obtain ⟨-, htask, hrecordVersion, hstatus, hdigest, hepoch, -, -, -⟩ :=
    TaskRetirementPendingReceipt.new_ok hfinish
  have hkey := hhas.key_eq
  have hsame : ∀ old, c.entries.lookup (LinkEntry.link (.taskRetirementPending record)).keyDigest
      = some old → old.header.key = record.record.key := by
    intro old hold
    rw [keyDigest_of_key (e := .link (.taskRetirementPending record)) hkey] at hold
    cases some.inj (hold.symm.trans hfound)
    exact hkey.symm
  have hinserts := planEntry_inserts hc h hstamped hhas.sequence_eq hsame
  exact ⟨hfound, hinserts, hkey, hhas.link_eq, htask, hrecordVersion, hstatus, hdigest, hepoch⟩

theorem planRemoval_ok {expected : TaskRetirementPendingReceipt}
    (h : planRemoval expected c = .ok (next, ())) :
    c.entries.lookup (receiptKeyDigest expected.record.key)
        = some (.link (.taskRetirementPending expected))
      ∧ Plans c (receiptKeyDigest expected.record.key) next
      ∧ next.entries.lookup (receiptKeyDigest expected.record.key) = none := by
  obtain ⟨removed, hremoved, h⟩ := bind_eq_ok.mp h
  obtain ⟨sequence, hsequence, h⟩ := bind_eq_ok.mp h
  cases h
  obtain ⟨hfound, rfl⟩ := (removeExactPending_eq_ok hc).mp hremoved
  obtain ⟨-, rfl⟩ := nextSequence_eq_ok.mp hsequence
  have hsound := hc.erase hfound
  refine ⟨hfound, ⟨hsound.advance (Nat.le_succ _), fun d hd => ?_⟩, lookup_erase _ _⟩
  exact lookup_erase_ne hd

end

end Plans

/-! ## The mutations -/

section

variable (hs : s.memory.Sound)
include hs

theorem reserveTaskLink_mutates : Mutates V (reserveTaskLink key link) s
      (fun held => s.memory.entries.lookup (receiptKeyDigest key) = some (.reservation held))
      True fun held next => s.memory.entries.lookup (receiptKeyDigest key) = none
        ∧ planReservation key link s.memory = .ok (next, held) := by
  have hidentity : (discipline V).Looks V (lift (validateExactIdentity key link)) s (fun _ => True) True :=
    (Looks.lift fun e he => ⟨Refuses.refuseIf (by nofun) e he, trivial⟩).mono
      (fun _ _ => trivial) id
  refine .look hidentity fun _ _ => ?_
  refine .look (looks_checkDeadline reports_discipline) fun _ _ => ?_
  refine .look (looks_verifyRootAuthority reports_discipline) fun _ _ => ?_
  refine .look (Ends.get ⟨(discipline V).same_refl s, rfl, rfl⟩) ?_
  rintro s rfl
  split
  case h_1 existing hexisting =>
    refine .of_looks ((Looks.lift ?_).mono ?_ id)
    · intro e he
      refine ⟨?_, trivial⟩
      unfold existingReservation at he
      split at he <;> split at he <;> cases he <;> nofun
    · intro held hheld
      unfold existingReservation at hheld
      split at hheld <;> split at hheld <;> cases hheld
      exact hexisting
  case h_2 habsent =>
    have hplan : (discipline V).Looks V (lift (planReservation key link s.memory)) s
        (fun planned => planReservation key link s.memory = .ok planned) True :=
      Looks.lift fun e he => ⟨Refuses.bind (Refuses.refuseIf (by nofun))
        (fun _ => refuses_planEntry fun _ => refuses_measured _ _) e he, trivial⟩
    refine .look hplan ?_
    rintro ⟨next, held⟩ hplanned
    obtain ⟨hinserts, hkey⟩ := planReservation_ok hs habsent hplanned
    refine (Mutates.committing hinserts.plans.sound fun t ht => check_requireReadback ?_).mono
      (fun _ h => h) id ?_
    · rw [ht, ← keyDigest_of_key (e := .reservation held) hkey]
      exact hinserts.lookup_eq
    · rintro b c' ⟨rfl, rfl⟩
      exact ⟨habsent, hplanned⟩

theorem materializeTaskBound_mutates :
    Mutates V (materializeTaskBound reservation task taskRecordVersion bindEpochMs phase) s (fun _ => False)
      (∀ planned, planTaskBound reservation task taskRecordVersion bindEpochMs phase s.memory ≠ .ok planned)
      fun record next =>
        planTaskBound reservation task taskRecordVersion bindEpochMs phase s.memory = .ok (next, record) := by
  refine mutate_mutates ?_ ?_
  · intro next record h
    obtain ⟨hinserts, hkey, -⟩ := planTaskBound_ok hs h
    refine ⟨hinserts.plans.sound, fun t ht => check_requireReadback ?_⟩
    rw [ht, ← keyDigest_of_key (e := .link (.taskBound record)) hkey]
    exact hinserts.lookup_eq
  · exact Refuses.bind (.refuseIf nofun) fun _ => refuses_planEntry fun _ =>
      (refuses_nextSequence _).bind fun _ => refuses_measured _ _

theorem markTaskBoundBegun_mutates :
    Mutates V (markTaskBoundBegun expected taskRecordVersion updatedAtEpochMs) s (fun _ => False)
      True fun record next => expected.phase = .notBegun
        ∧ planBegun expected taskRecordVersion updatedAtEpochMs s.memory = .ok (next, record) := by
  have hphase : (discipline V).Looks V (lift (refuseIf (expected.phase ≠ .notBegun) .stateMismatch)) s
      (fun _ => expected.phase = .notBegun) True :=
    (Looks.lift fun e he => ⟨Refuses.refuseIf (by nofun) e he, trivial⟩).mono
      (fun _ h => not_ne_iff.mp (refuseIf_eq_ok.mp h)) id
  refine .look hphase fun _ hnotBegun => ?_
  refine (mutate_mutates ?_ ?_).mono (fun _ h => h) (fun _ => trivial) fun _ _ h => ⟨hnotBegun, h⟩
  · intro next record h
    exact ⟨(planBegun_ok hs h).2.1.plans.sound, fun t _ => check_unchecked t⟩
  · exact (refuses_exactLink _).bind fun _ => (refuses_applicationCorruption _).bind fun _ =>
      refuses_planBoundSuccessor _ _ _

theorem refreshTaskBoundProjection_mutates :
    Mutates V (refreshTaskBoundProjection expected task) s (fun _ => False)
      (∀ planned, planRefreshed expected task s.memory ≠ .ok planned)
      fun record next => planRefreshed expected task s.memory = .ok (next, record) := by
  refine mutate_mutates ?_ ?_
  · intro next record h
    obtain ⟨-, hinserts, hkey, -⟩ := planRefreshed_ok hs h
    refine ⟨hinserts.plans.sound, fun t ht => check_requireReadback ?_⟩
    rw [ht, ← keyDigest_of_key (e := .link (.taskBound record)) hkey]
    exact hinserts.lookup_eq
  · exact (refuses_exactLink _).bind fun _ => refuses_planBoundSuccessor _ _ _

theorem publishTaskTerminalBound_mutates :
    Mutates V (publishTaskTerminalBound expected task taskRecordVersion status digest terminalEpochMs) s
      (fun _ => False)
      (∀ planned, planTerminalBound expected task taskRecordVersion status digest terminalEpochMs s.memory
        ≠ .ok planned)
      fun record next => planTerminalBound expected task taskRecordVersion status digest terminalEpochMs
        s.memory = .ok (next, record) := by
  refine mutate_mutates ?_ ?_
  · intro next record h
    exact ⟨(planTerminalBound_ok hs h).2.1.plans.sound, fun t _ => check_unchecked t⟩
  · exact (refuses_exactLink _).bind fun _ => refuses_planEntry fun _ =>
      .bind (.okOr nofun) fun _ => (refuses_nextSequence _).bind fun _ => refuses_measured _ _

theorem beginTaskRetirement_mutates {expected : TaskTerminalBoundReceipt} :
    Mutates V (beginTaskRetirement expected invocationBytes taskBytes) s (fun _ => False)
      (∀ planned, planRetirement expected invocationBytes taskBytes s.memory ≠ .ok planned)
      fun record next => planRetirement expected invocationBytes taskBytes s.memory = .ok (next, record) := by
  refine mutate_mutates ?_ ?_
  · intro next record h
    exact ⟨(planRetirement_ok hs h).2.1.plans.sound, fun t _ => check_unchecked t⟩
  · exact (refuses_exactLink _).bind fun _ => refuses_planEntry fun _ =>
      (refuses_nextSequence _).bind fun _ => (refuses_applicationCorruption _).bind fun _ =>
        refuses_measured _ _

theorem finalizeTaskRetirement_mutates {expected : TaskRetirementPendingReceipt} :
    Mutates V (finalizeTaskRetirement expected) s (fun _ => False)
      (∀ planned, planRemoval expected s.memory ≠ .ok planned)
      fun _ next => planRemoval expected s.memory = .ok (next, ()) := by
  refine mutate_mutates ?_ ?_
  · intro next _ h
    exact ⟨(planRemoval_ok hs h).2.1.sound, fun t _ => check_unchecked t⟩
  · refine Refuses.bind ?_ fun _ => (refuses_nextSequence _).bind fun _ => .ok
    exact Refuses.bind (.okOr nofun) fun _ => .bind (.refuseIf nofun) fun _ =>
      .bind (.refuseIf nofun) fun _ => .ok

end

end Unica.Link
