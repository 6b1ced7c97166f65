import Unica.Link.Mutations

/-!
# Links that fit their kilobyte

The length of a link's JSON depends on the name of its tool, the name of its status or
phase and the digits of its numbers. A `TaskBound` of machine words always fits. A
`TaskTerminalBound` does not: ten numbers share what is left, and its builder refuses a
link that is too large. A `TaskRetirementPending` fits wherever the terminal link did.
-/

namespace Unica.Link

open Lib Receipt StoredEntry StoredTaskProjection TaskTerminalBoundReceipt List

/-! ## Lengths -/

theorem numberLength_mono {m n : Nat} (h : m ≤ n) : numberLength m ≤ numberLength n :=
  Nat.add_le_add_right (Nat.log_mono_right h) 1

theorem numberLength_le {n : Nat} (h : n < wordBound) : numberLength n ≤ 20 := by
  have hpow : n < 10 ^ 20 := Nat.lt_trans h (by decide)
  by_cases hn : n = 0
  · subst hn
    decide
  · exact Nat.log_lt_of_lt_pow hn hpow

theorem numberLength_le_four {n : Nat} (h : n ≤ maxTaskLifecycleLinkRecordBytes) : numberLength n ≤ 4 :=
  Nat.le_trans (numberLength_mono h) (by decide)

theorem wireName_length_le (tool : V5ToolIdentity) : tool.wireName.length ≤ 13 := by
  cases tool <;> decide

theorem objectLength_eq {fields : List String} {values : List Nat} {n : Nat}
    (h : 1 + (fields.map fun field => field.length + 4).sum = n) : objectLength fields values = n + values.sum := by
  unfold objectLength
  rw [h]

theorem keyLength_eq (key : ReceiptKey) : keyLength key = 388 + key.tool.wireName.length := by
  unfold keyLength
  rw [objectLength_eq (n := 112) (by decide)]
  simp only [sum_cons, sum_nil, uuidLength, digestLength, textLength]
  omega

theorem linkLength_eq : linkLength = 176 := by decide

theorem StoredTaskProjection.encodedLen_eq (task : StoredTaskProjection) : task.encodedLen
    = 79 + (numberLength task.createdAtEpochMs + numberLength task.updatedAtEpochMs
      + numberLength task.ttlMs + numberLength task.pollIntervalMs + numberLength task.version) := by
  unfold encodedLen
  rw [objectLength_eq (n := 79) (by decide)]
  simp only [sum_cons, sum_nil]
  omega

/-- The digits of the numbers of a terminal link. -/
def terminalDigits (task : StoredTaskProjection) (version sequence taskRecordVersion : Nat)
    (terminalEpochMs expiresAtEpochMs : EpochMs) : Nat :=
  numberLength task.createdAtEpochMs + numberLength task.updatedAtEpochMs + numberLength task.ttlMs
    + numberLength task.pollIntervalMs + numberLength task.version + numberLength version
    + numberLength sequence + numberLength taskRecordVersion + numberLength terminalEpochMs
    + numberLength expiresAtEpochMs

variable {task : StoredTaskProjection} {terminalEpochMs expiresAtEpochMs : EpochMs} {head : StoredHead}
  {status : ClosedTerminalStatus} {taskRecordVersion : Nat} {digest : TerminalDigest}

theorem encodedLen_taskTerminalBound :
    (taskTerminalBound head task taskRecordVersion status digest terminalEpochMs
      expiresAtEpochMs).encodedLen
      = 921 + head.key.tool.wireName.length + statusLength status
        + terminalDigits task head.version head.mutationSequence taskRecordVersion terminalEpochMs
          expiresAtEpochMs := by
  unfold terminalDigits
  refine (objectLength_eq (n := 190) (by decide)).trans ?_
  simp only [sum_cons, sum_nil, keyLength_eq, linkLength_eq, encodedLen_eq,
    digestLength, show textLength "task_terminal_bound" = 21 by decide]
  omega

theorem encodedLen_taskBound {bindEpochMs : EpochMs} {phase : AttemptPhase} :
    (taskBound head task taskRecordVersion bindEpochMs phase).encodedLen
      = 795 + head.key.tool.wireName.length + phaseLength phase
        + (numberLength task.createdAtEpochMs + numberLength task.updatedAtEpochMs
          + numberLength task.ttlMs + numberLength task.pollIntervalMs + numberLength task.version
          + numberLength head.version + numberLength head.mutationSequence + numberLength taskRecordVersion
          + numberLength bindEpochMs) := by
  refine (objectLength_eq (n := 139) (by decide)).trans ?_
  simp only [sum_cons, sum_nil, keyLength_eq, linkLength_eq, encodedLen_eq,
    show textLength "task_bound" = 12 by decide]
  omega

theorem encodedLen_taskRetirementPending {expectedVersion : Nat} {bytes invocationBytes taskBytes : Nat} :
    (taskRetirementPending head task expectedVersion status digest terminalEpochMs
      expiresAtEpochMs bytes invocationBytes taskBytes).encodedLen
      = 842 + head.key.tool.wireName.length + statusLength status
        + terminalDigits task head.version head.mutationSequence expectedVersion terminalEpochMs
          expiresAtEpochMs
        + (numberLength bytes + numberLength invocationBytes + numberLength taskBytes) := by
  unfold terminalDigits
  refine (objectLength_eq (n := 107) (by decide)).trans ?_
  simp only [sum_cons, sum_nil, keyLength_eq, linkLength_eq, encodedLen_eq,
    digestLength, show textLength "task_retirement_pending" = 25 by decide]
  omega

/-! ## When a terminal link can be written -/

section Terminal

variable [ReceiptCodec] {c : LinkCatalog} {expected : TaskBoundReceipt} {task : ReceiptTaskProjection}
  {taskRecordVersion : Nat} {status : ClosedTerminalStatus} {digest : TerminalDigest}
  {terminalEpochMs : EpochMs}

/-- There is room for the terminal link of a Task after the given TaskBound. -/
structure TerminalRoom (expected : TaskBoundReceipt) (sequence : Nat) (task : StoredTask)
    (status : ClosedTerminalStatus) (terminalEpochMs : EpochMs) : Prop where
  sequence_lt : sequence < wordBound
  version_lt : expected.record.lifecycleLinkVersion + 1 < wordBound
  expiry_lt : terminalEpochMs + task.ttlMs < wordBound
  digits_le : expected.record.key.tool.wireName.length + statusLength status
    + terminalDigits ⟨task.createdAtEpochMs, task.updatedAtEpochMs, task.ttlMs, task.pollIntervalMs, task.version⟩
      (expected.record.lifecycleLinkVersion + 1) sequence task.version terminalEpochMs
      (terminalEpochMs + task.ttlMs) ≤ 103

/-- The Task a terminal link describes is the one of its key, at the version and the epoch given. -/
structure TerminalOf (expected : TaskBoundReceipt) (task : StoredTask) (taskRecordVersion : Nat)
    (terminalEpochMs : EpochMs) : Prop where
  task_eq : task.taskId = expected.record.key.reservedTaskId
  invocation_eq : task.invocationId = expected.record.key.invocationId
  version_eq : task.version = taskRecordVersion
  updated_eq : task.updatedAtEpochMs = terminalEpochMs

/-- **When a terminal link can be written.** -/
theorem planTerminalBound_succeeds_iff (hc : c.Sound)
    (hfound : c.entries.lookup (receiptKeyDigest expected.record.key)
      = some (.link (.taskBound expected))) :
    (∃ planned, planTerminalBound expected task taskRecordVersion status digest terminalEpochMs c = .ok planned)
      ↔ TerminalOf expected task.toStoredTask taskRecordVersion terminalEpochMs
        ∧ TerminalRoom expected (c.mutationSequence + 1) task.toStoredTask status terminalEpochMs := by
  have hfinish := finishes_taskTerminalBound task taskRecordVersion status digest terminalEpochMs
    (terminalEpochMs + task.ttlMs)
  constructor
  · rintro ⟨⟨next, record⟩, hplan⟩
    obtain ⟨_, -, hplan⟩ := bind_eq_ok.mp hplan
    obtain ⟨hsequence, hbuild, -, -⟩ := planEntry_ok hplan
    obtain ⟨expiry, hexpiry, hbuild⟩ := bind_eq_ok.mp hbuild
    obtain ⟨hlt, rfl⟩ := checkedAdd_eq_some.mp (okOr_eq_ok.mp hexpiry)
    obtain ⟨version, hnext, hbuild⟩ := bind_eq_ok.mp hbuild
    obtain ⟨hversion, rfl⟩ := nextSequence_eq_ok.mp hnext
    obtain ⟨-, hhas, hmade⟩ := measured_ok hfinish hbuild
    obtain ⟨-, htask, hrecordVersion, -, -, hepoch, -⟩ := new_ok hmade
    have hkey := hhas.key_eq
    have hof : TerminalOf expected task.toStoredTask taskRecordVersion terminalEpochMs := by
      rw [← htask, ← hrecordVersion, ← hepoch]
      exact ⟨hkey ▸ record.task_eq, hkey ▸ record.invocation_eq, record.version_eq, record.updated_eq⟩
    refine ⟨hof, hsequence, hversion, hlt, ?_⟩
    have hfits := measured_fits hfinish hbuild
    rw [encodedLen_taskTerminalBound, ← hof.version_eq, Nat.add_assoc 921, Nat.add_assoc 921] at hfits
    exact Nat.le_of_add_le_add_left (show 921 + _ ≤ 921 + 103 from hfits)
  · rintro ⟨hof, hroom⟩
    have hok : ∀ header, header.key = expected.record.key →
        ∃ a, new header task taskRecordVersion status digest terminalEpochMs
          (terminalEpochMs + task.ttlMs) = .ok a := by
      intro header hkey
      unfold new
      rw [dif_pos hroom.expiry_lt, dif_pos ⟨hkey ▸ hof.task_eq, hkey ▸ hof.invocation_eq, hof.version_eq,
        hof.updated_eq, rfl⟩]
      exact ⟨_, rfl⟩
    have hfits : (taskTerminalBound ⟨expected.record.key,
        expected.record.link.workspaceIdentityHash, ReceiptCodec.taskLinkDigest expected.record.link,
        expected.record.lifecycleLinkVersion + 1, c.mutationSequence + 1⟩ (.fromApplication task)
        taskRecordVersion status digest terminalEpochMs (terminalEpochMs + task.ttlMs)).encodedLen
        ≤ maxTaskLifecycleLinkRecordBytes := by
      rw [encodedLen_taskTerminalBound, ← hof.version_eq, Nat.add_assoc 921, Nat.add_assoc 921]
      exact Nat.add_le_add_left hroom.digits_le 921
    obtain ⟨record, hrecord⟩ := measured_succeeds hfinish (Nat.succ_pos _) (Nat.succ_pos c.mutationSequence)
      (linkReference_header expected.record).symm hok hfits
    obtain ⟨-, hhas, -⟩ := measured_ok hfinish hrecord
    have hkey : record.record.key = expected.record.key := hhas.key_eq
    have hfree : ¬ c.taken record.record.key (receiptKeyDigest record.record.key) := by
      have hbound : c.entries.lookup (LinkEntry.link (.taskBound expected)).keyDigest
          = some (.link (.taskBound expected)) := hfound
      rw [hkey]
      exact hc.not_taken hbound
    have hnext : ∃ next, planEntry c (fun record => .link (.taskTerminalBound record)) (fun sequence => do
        let expiresAtEpochMs ← okOr (LinkStoreError.corrupt "terminal retention timestamp overflowed")
          (checkedAdd wordBound terminalEpochMs task.ttlMs)
        let version ← nextSequence expected.record.lifecycleLinkVersion
        buildTaskTerminalBound expected.record.key expected.record.link task version sequence
          taskRecordVersion status digest terminalEpochMs expiresAtEpochMs) = .ok (next, record) := by
      refine planEntry_succeeds hroom.sequence_lt ?_ hfree
      refine bind_eq_ok.mpr ⟨_, okOr_eq_ok.mpr (checkedAdd_eq_some.mpr ⟨hroom.expiry_lt, rfl⟩), ?_⟩
      exact bind_eq_ok.mpr ⟨_, nextSequence_eq_ok.mpr ⟨hroom.version_lt, rfl⟩, hrecord⟩
    obtain ⟨next, hnext⟩ := hnext
    exact ⟨(next, record), bind_eq_ok.mpr ⟨(), exactLink_eq_ok.mpr hfound, hnext⟩⟩

end Terminal

end Unica.Link
