import Unica.Link.Fits
import Unica.Link.Machine

/-!
# The stages after a reservation

A reservation holds a kilobyte for every later stage of its link. `TaskBound` and
`TaskRetirementPending` always keep to it. `TaskTerminalBound` writes its ten numbers under
long names: it keeps to it exactly as long as their digits leave the room they share with
the names of the tool and of the status.
-/

namespace Unica.Link

open Lib Receipt LifecycleLinkRecordHeader StoredHead ReceiptCodec StoredEntry List

section Stages

variable [ReceiptCodec]

/-- A stage of a link after its reservation, with what its builder is given. -/
inductive LaterStage where
  | taskBound (task : ReceiptTaskProjection)
      (lifecycleLinkVersion mutationSequence taskRecordVersion : Nat) (bindEpochMs : EpochMs)
      (phase : AttemptPhase)
  | taskTerminalBound (task : ReceiptTaskProjection)
      (lifecycleLinkVersion mutationSequence taskRecordVersion : Nat) (status : ClosedTerminalStatus)
      (digest : TerminalDigest) (terminalEpochMs expiresAtEpochMs : EpochMs)
  | taskRetirementPending (expected : TaskTerminalBoundReceipt)
      (lifecycleLinkVersion mutationSequence : Nat)

namespace LaterStage

/-- The index sizes the runtime retires a Task with. -/
def indexBytes : Nat := 64

def build (held : TaskLinkReservation) : LaterStage → Except LinkStoreError TaskLifecycleLinkRecord
  | taskBound task version sequence taskRecordVersion bindEpochMs phase => do
      let record ← buildTaskBound held.header.key held.header.link task version sequence
        taskRecordVersion bindEpochMs phase
      pure (.taskBound record)
  | taskTerminalBound task version sequence taskRecordVersion status digest terminalEpochMs
      expiresAtEpochMs => do
      let record ← buildTaskTerminalBound held.header.key held.header.link task version sequence
        taskRecordVersion status digest terminalEpochMs expiresAtEpochMs
      pure (.taskTerminalBound record)
  | taskRetirementPending expected version sequence => do
      let record ← buildTaskRetirementPending expected version sequence indexBytes indexBytes
      pure (.taskRetirementPending record)

/-- The numbers that come with the stage. -/
def numbers : LaterStage → List Nat
  | taskBound task version sequence taskRecordVersion bindEpochMs _ =>
      [task.createdAtEpochMs, task.updatedAtEpochMs, task.ttlMs, task.pollIntervalMs, task.version,
        version, sequence, taskRecordVersion, bindEpochMs]
  | taskTerminalBound task version sequence taskRecordVersion _ _ terminalEpochMs expiresAtEpochMs =>
      [task.createdAtEpochMs, task.updatedAtEpochMs, task.ttlMs, task.pollIntervalMs, task.version,
        version, sequence, taskRecordVersion, terminalEpochMs, expiresAtEpochMs]
  | taskRetirementPending _ version sequence => [version, sequence]

/-- The constructors accept the stage for the reservation; a retirement starts from a link as the
store holds it. -/
def Accepted (held : TaskLinkReservation) : LaterStage → Prop
  | taskBound task version sequence taskRecordVersion bindEpochMs phase => ∃ record, (do
      let header ← new held.header.key held.header.link version sequence 1
      TaskBoundReceipt.new header task taskRecordVersion bindEpochMs phase) = .ok record
  | taskTerminalBound task version sequence taskRecordVersion status digest terminalEpochMs
      expiresAtEpochMs => ∃ record, (do
      let header ← new held.header.key held.header.link version sequence 1
      TaskTerminalBoundReceipt.new header task taskRecordVersion status digest terminalEpochMs
        expiresAtEpochMs) = .ok record
  | taskRetirementPending expected version sequence =>
      expected.record.key = held.header.key
        ∧ (LinkEntry.link (.taskTerminalBound expected)).Stamped ∧ 0 < version ∧ 0 < sequence

/-- The digits of a terminal link, the name of its tool and the name of its status share 103
bytes. -/
def DigitsFit (held : TaskLinkReservation) : LaterStage → Prop
  | taskTerminalBound task version sequence taskRecordVersion status _ terminalEpochMs
      expiresAtEpochMs => held.header.key.tool.wireName.length + statusLength status
        + terminalDigits (.fromApplication task) version sequence taskRecordVersion terminalEpochMs
          expiresAtEpochMs ≤ 103
  | _ => True

end LaterStage

section Measured

variable {α : Type} {entry : α → LinkEntry} {finish : LifecycleLinkRecordHeader → Except ReceiptLedgerError α}
  {form : StoredHead → StoredEntry} {key : ReceiptKey} {link : TaskLinkIdentity} {version sequence : Nat}

/-- A link that is refused for its size has a JSON that is too large. -/
theorem measured_tooLarge {actual maximum : Nat} (hfinish : Finishes entry finish form)
    (h : measured entry (fun bytes =>
      new key link version sequence bytes >>= finish) = .error (.recordTooLarge actual maximum)) :
    maxTaskLifecycleLinkRecordBytes < (form ⟨key, link.workspaceIdentityHash,
      taskLinkDigest link, version, sequence⟩).encodedLen := by
  have hcorrupt : ∀ x : Except ReceiptLedgerError α,
      applicationCorruption x ≠ .error (.recordTooLarge actual maximum) := by
    intro x hx
    cases x <;> cases hx
  rcases bind_eq_error.mp h with h | ⟨provisional, hprovisional, h⟩
  · exact absurd h (hcorrupt _)
  obtain ⟨header, hheader, hp⟩ := bind_eq_ok.mp (applicationCorruption_eq_ok.mp hprovisional)
  rw [← fromHeader_of_has (new_ok hheader), ← (hfinish header provisional hp).2]
  rcases bind_eq_error.mp h with h | ⟨_, -, h⟩
  · exact (refuseIf_eq_error.mp h).1
  · exact absurd h (hcorrupt _)

/-- An accepted link is too large exactly when its JSON is. -/
theorem measured_tooLarge_iff (hfinish : Finishes entry finish form)
    (haccepted : ∃ a, (new key link version sequence 1 >>= finish) = .ok a) :
    (∃ actual maximum, measured entry (fun bytes =>
      new key link version sequence bytes >>= finish) = .error (.recordTooLarge actual maximum))
      ↔ maxTaskLifecycleLinkRecordBytes < (form ⟨key, link.workspaceIdentityHash,
        taskLinkDigest link, version, sequence⟩).encodedLen := by
  refine ⟨fun ⟨_, _, h⟩ => measured_tooLarge hfinish h, fun hlarge => ?_⟩
  obtain ⟨provisional, hprovisional⟩ := haccepted
  obtain ⟨header, hheader, hp⟩ := bind_eq_ok.mp hprovisional
  rw [← fromHeader_of_has (new_ok hheader),
    ← (hfinish header provisional hp).2] at hlarge
  refine ⟨(fromCatalogEntry (entry provisional)).encodedLen,
    maxTaskLifecycleLinkRecordBytes, bind_eq_error.mpr (.inr ⟨provisional,
      applicationCorruption_eq_ok.mpr hprovisional, bind_eq_error.mpr (.inl ?_)⟩)⟩
  exact refuseIf_eq_error.mpr ⟨hlarge, rfl⟩

end Measured

namespace LaterStage

variable {held : TaskLinkReservation} {version sequence taskRecordVersion : Nat}
  {task : ReceiptTaskProjection}

omit [ReceiptCodec] in
/-- The record is wrapped after it was built. -/
theorem map_error_iff {α β : Type} {x : Except LinkStoreError α} {f : α → β} {e : LinkStoreError} :
    (do let a ← x; pure (f a)) = .error e ↔ x = .error e := by
  rw [bind_eq_error, or_iff_left]
  rintro ⟨_, -, h⟩
  cases h

omit [ReceiptCodec] in
theorem phaseLength_le (phase : AttemptPhase) : phaseLength phase ≤ 11 := by
  cases phase <;> decide

theorem taskBound_fits {bindEpochMs : EpochMs} {phase : AttemptPhase}
    (hwords : ∀ n ∈ (taskBound task version sequence taskRecordVersion bindEpochMs phase).numbers,
      n < wordBound) (actual maximum : Nat) :
    (taskBound task version sequence taskRecordVersion bindEpochMs phase).build held
      ≠ .error (.recordTooLarge actual maximum) := by
  intro herror
  have hlarge := measured_tooLarge (finishes_taskBound task taskRecordVersion bindEpochMs phase)
    (map_error_iff.mp herror)
  rw [encodedLen_taskBound, maxTaskLifecycleLinkRecordBytes] at hlarge
  have htool := wireName_length_le held.header.key.tool
  have hphase := phaseLength_le phase
  have hdigits : ∀ n ∈ (taskBound task version sequence taskRecordVersion bindEpochMs phase).numbers,
      numberLength n ≤ 20 := fun n hn => numberLength_le (hwords n hn)
  simp only [numbers, mem_cons, not_mem_nil, or_false, forall_eq_or_imp, forall_eq] at hdigits
  simp only [StoredTaskProjection.fromApplication] at hlarge
  omega

theorem taskTerminalBound_fits_iff {status : ClosedTerminalStatus} {digest : TerminalDigest}
    {terminalEpochMs expiresAtEpochMs : EpochMs}
    (h : (taskTerminalBound task version sequence taskRecordVersion status digest terminalEpochMs
      expiresAtEpochMs).Accepted held) :
    (∃ actual maximum, (taskTerminalBound task version sequence taskRecordVersion status digest
      terminalEpochMs expiresAtEpochMs).build held = .error (.recordTooLarge actual maximum))
      ↔ ¬ (taskTerminalBound task version sequence taskRecordVersion status digest terminalEpochMs
        expiresAtEpochMs).DigitsFit held := by
  simp only [build, map_error_iff]
  refine (measured_tooLarge_iff (finishes_taskTerminalBound task taskRecordVersion status digest
    terminalEpochMs expiresAtEpochMs) h).trans ?_
  rw [encodedLen_taskTerminalBound, maxTaskLifecycleLinkRecordBytes, DigitsFit]
  dsimp only
  omega

/-- A link that fitted as a terminal one fits while it is retired: its fields have short names. -/
theorem taskRetirementPending_fits {expected : TaskTerminalBoundReceipt} {version sequence : Nat}
    (h : (taskRetirementPending expected version sequence).Accepted held)
    (hwords : ∀ n ∈ (taskRetirementPending expected version sequence).numbers, n < wordBound)
    (actual maximum : Nat) : (taskRetirementPending expected version sequence).build held
      ≠ .error (.recordTooLarge actual maximum) := by
  intro herror
  obtain ⟨-, hstamped, -, -⟩ := h
  have hfits := expected.record.bytes_le
  rw [show expected.record.encodedBytes = _ from hstamped] at hfits
  have hbytes := numberLength_le_four expected.record.bytes_le
  have hlarge := measured_tooLarge (finishes_taskRetirementPending _ _ _ _ _ _ _
    ⟨indexBytes, indexBytes, by decide, by decide⟩) (map_error_iff.mp herror)
  have hindex : numberLength indexBytes = 2 := by decide
  simp only [numbers, mem_cons, not_mem_nil, or_false, forall_eq_or_imp, forall_eq] at hwords
  have hversion := numberLength_le hwords.1
  have hsequence := numberLength_le hwords.2
  rw [fromCatalogEntry] at hfits
  simp only [encodedLen_taskTerminalBound, encodedLen_taskRetirementPending, terminalDigits,
    maxTaskLifecycleLinkRecordBytes, fromHeader] at hfits hlarge
  omega

end LaterStage

/-- **A stage after the reservation is refused for its size** exactly when it is a terminal one whose
digits do not leave room. -/
theorem later_stage_fits_iff (held : TaskLinkReservation) (stage : LaterStage)
    (haccepted : stage.Accepted held) (hwords : ∀ n ∈ stage.numbers, n < wordBound) :
    (∀ actual maximum, stage.build held ≠ .error (.recordTooLarge actual maximum))
      ↔ stage.DigitsFit held := by
  cases stage with
  | taskBound => exact iff_of_true (LaterStage.taskBound_fits hwords) trivial
  | taskTerminalBound =>
    have hlarge := LaterStage.taskTerminalBound_fits_iff haccepted
    rw [← not_iff_not, ← hlarge]
    simp
  | taskRetirementPending =>
    exact iff_of_true (LaterStage.taskRetirementPending_fits haccepted hwords) trivial

end Stages

section Sample

open Unica.Task

attribute [local instance] plainCodec

/-- A reservation of the Task 1. -/
def plainHeld : TaskLinkReservation where
  header := ⟨plainKey 1, linkReference (plainKey 1) 0, 1, 1, 700, Nat.one_pos, Nat.one_pos,
    by decide, by decide, rfl, rfl, rfl⟩

/-- The terminal link of a Task that is kept for an hour, with the times of a real clock. -/
def hourTerminal : LaterStage :=
  .taskTerminalBound ⟨⟨1, 1, 1790000000000, 1790000000100, 3600000, 100, 2⟩, by decide, by decide,
    by decide, by decide⟩ 3 3 2 .completed 7 1790000000100 1790003600100

/-- The same for a Task that is kept for a billion billion milliseconds. -/
def agesTerminal : LaterStage :=
  .taskTerminalBound ⟨⟨1, 1, 1790000000000, 1790000000100, 1000000000000000000, 100, 2⟩, by decide,
    by decide, by decide, by decide⟩ 3 3 2 .completed 7 1790000000100 1000001790000000100

theorem later_stage_fits_iff_hour : hourTerminal.DigitsFit plainHeld
    ∧ ∀ actual maximum, hourTerminal.build plainHeld ≠ .error (.recordTooLarge actual maximum) := by
  have hfits : hourTerminal.DigitsFit plainHeld := by
    change _ ≤ 103
    decide +kernel
  refine ⟨hfits, (later_stage_fits_iff plainHeld hourTerminal ?_ ?_).mpr hfits⟩
  · exact ⟨_, rfl⟩
  · decide +kernel

/-- The constructors accept it, but the link is five bytes too long. -/
theorem terminal_link_too_large : agesTerminal.Accepted plainHeld
    ∧ (∀ n ∈ agesTerminal.numbers, n < wordBound)
    ∧ agesTerminal.build plainHeld = .error (.recordTooLarge 1029 1024) := by
  refine ⟨?_, ?_, ?_⟩
  · exact ⟨_, rfl⟩
  · decide +kernel
  · decide +kernel

end Sample

end Unica.Link
