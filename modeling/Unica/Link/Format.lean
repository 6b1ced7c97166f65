import Unica.Link.Record

/-!
# The stored form of a link

A link that carries the length of its own JSON is read back as it was written, and every
builder gives its link that length. So a link the store holds never fails to be read for
its size, its identity or its Task.
-/

variable {task : ReceiptTaskProjection} {bytes : Nat}

namespace Unica.Receipt

open Lib RetainedDualIdAccounting

variable [ReceiptCodec] {record : LifecycleLinkRecordHeader}
  {terminalEpochMs expiresAtEpochMs : EpochMs} {status : ClosedTerminalStatus} {taskRecordVersion : Nat}
  {digest : TerminalDigest}

namespace LifecycleLinkRecordHeader

theorem new_self (header : LifecycleLinkRecordHeader) :
    new header.key header.link header.lifecycleLinkVersion header.mutationSequence
      header.encodedBytes = .ok header := by
  unfold new
  rw [dif_pos ⟨header.version_pos, header.sequence_pos, header.bytes_pos⟩, dif_pos header.bytes_le,
    dif_pos ⟨header.digest_eq, header.task_eq, header.invocation_eq⟩]

/-- The header a call builds is the one with its arguments. -/
structure Has (header : LifecycleLinkRecordHeader) (key : ReceiptKey)
    (link : TaskLinkIdentity) (version sequence bytes : Nat) : Prop where
  key_eq : header.key = key
  link_eq : header.link = link
  version_eq : header.lifecycleLinkVersion = version
  sequence_eq : header.mutationSequence = sequence
  bytes_eq : header.encodedBytes = bytes

theorem new_ok {key : ReceiptKey} {link : TaskLinkIdentity}
    {version sequence bytes : Nat} {header : LifecycleLinkRecordHeader}
    (h : new key link version sequence bytes = .ok header) :
    header.Has key link version sequence bytes := by
  unfold new at h
  split at h
  case isTrue =>
    split at h
    case isTrue =>
      split at h
      case isTrue =>
        cases h
        exact ⟨rfl, rfl, rfl, rfl, rfl⟩
      case isFalse => cases h
    case isFalse => cases h
  case isFalse => cases h

end LifecycleLinkRecordHeader

theorem TaskBoundReceipt.new_self (r : TaskBoundReceipt) :
    new r.record r.task r.taskRecordVersion r.bindEpochMs r.phase = .ok r := by
  unfold new
  rw [dif_pos ⟨r.task_eq, r.invocation_eq, r.version_eq, r.created_le_bind⟩]

theorem TaskTerminalBoundReceipt.new_self (r : TaskTerminalBoundReceipt) :
    new r.record r.task r.taskRecordVersion r.terminalStatus r.terminalDigest
      r.terminalEpochMs r.expiresAtEpochMs = .ok r := by
  unfold new
  rw [dif_pos (r.expiry_eq ▸ r.expiry_lt),
    dif_pos ⟨r.task_eq, r.invocation_eq, r.version_eq, r.updated_eq, r.expiry_eq⟩]

theorem TaskRetirementPendingReceipt.new_self (r : TaskRetirementPendingReceipt) :
    new r.record r.task r.expectedTerminalTaskVersion r.terminalStatus
      r.terminalDigest r.terminalEpochMs r.expiresAtEpochMs r.retainedLinkBytes r.retainedDualIdAccounting
      = .ok r := by
  unfold new
  rw [dif_pos (r.expiry_eq ▸ r.expiry_lt),
    dif_pos ⟨r.task_eq, r.invocation_eq, r.version_eq, r.updated_eq, r.expiry_eq, r.retained_pos⟩]

omit [ReceiptCodec] in
theorem RetainedDualIdAccounting.new_self (accounting : RetainedDualIdAccounting) :
    new accounting.invocationIndexBytes accounting.reservedTaskIndexBytes
      = .ok accounting := by
  unfold new
  rw [dif_pos ⟨accounting.invocation_pos, accounting.task_pos⟩]

theorem TaskBoundReceipt.new_ok {bindEpochMs : EpochMs} {phase : AttemptPhase} {r : TaskBoundReceipt}
    (h : new record task taskRecordVersion bindEpochMs phase = .ok r) :
    r.record = record ∧ r.task = task ∧ r.taskRecordVersion = taskRecordVersion
      ∧ r.bindEpochMs = bindEpochMs ∧ r.phase = phase := by
  unfold new at h
  split at h
  case isTrue =>
    cases h
    exact ⟨rfl, rfl, rfl, rfl, rfl⟩
  case isFalse => cases h

theorem TaskTerminalBoundReceipt.new_ok {r : TaskTerminalBoundReceipt}
    (h : new record task taskRecordVersion status digest terminalEpochMs
      expiresAtEpochMs = .ok r) :
    r.record = record ∧ r.task = task ∧ r.taskRecordVersion = taskRecordVersion
      ∧ r.terminalStatus = status ∧ r.terminalDigest = digest ∧ r.terminalEpochMs = terminalEpochMs
      ∧ r.expiresAtEpochMs = expiresAtEpochMs := by
  unfold new at h
  split at h
  case isTrue =>
    split at h
    case isTrue =>
      cases h
      exact ⟨rfl, rfl, rfl, rfl, rfl, rfl, rfl⟩
    case isFalse => cases h
  case isFalse => cases h

theorem TaskRetirementPendingReceipt.new_ok {expectedVersion : Nat}
    {accounting : RetainedDualIdAccounting} {r : TaskRetirementPendingReceipt}
    (h : new record task expectedVersion status digest terminalEpochMs
      expiresAtEpochMs bytes accounting = .ok r) :
    r.record = record ∧ r.task = task ∧ r.expectedTerminalTaskVersion = expectedVersion
      ∧ r.terminalStatus = status ∧ r.terminalDigest = digest ∧ r.terminalEpochMs = terminalEpochMs
      ∧ r.expiresAtEpochMs = expiresAtEpochMs ∧ r.retainedLinkBytes = bytes
      ∧ r.retainedDualIdAccounting = accounting := by
  unfold new at h
  split at h
  case isTrue =>
    split at h
    case isTrue =>
      cases h
      exact ⟨rfl, rfl, rfl, rfl, rfl, rfl, rfl, rfl, rfl⟩
    case isFalse => cases h
  case isFalse => cases h

end Unica.Receipt

namespace Unica.Link

open Lib Receipt StoredHead

@[simp] theorem applicationCorruption_eq_ok {α : Type} {x : Except ReceiptLedgerError α} {a : α} :
    applicationCorruption x = .ok a ↔ x = .ok a := by
  cases x <;> simp [applicationCorruption]

theorem nextSequence_eq_ok {n m : Nat} : nextSequence n = .ok m ↔ n + 1 < wordBound ∧ m = n + 1 := by
  rw [nextSequence, okOr_eq_ok, checkedAdd_eq_some, eq_comm]

theorem ensureRecordSize_eq_ok {n : Nat} :
    ensureRecordSize n = .ok () ↔ n ≤ maxTaskLifecycleLinkRecordBytes := by
  simp [ensureRecordSize]

section RoundTrip

variable [ReceiptCodec]

/-- The link carries the length of its own JSON. -/
def LinkEntry.Stamped (entry : LinkEntry) : Prop :=
  entry.header.encodedBytes = (StoredEntry.fromCatalogEntry entry).encodedLen

theorem linkReference_header (header : LifecycleLinkRecordHeader) :
    linkReference header.key header.link.workspaceIdentityHash = header.link := by
  unfold linkReference
  rw [← header.digest_eq, ← header.task_eq, ← header.invocation_eq]

theorem StoredHead.intoHeader_fromHeader (header : LifecycleLinkRecordHeader)
    (h : header.encodedBytes = bytes) : (fromHeader header).intoHeader bytes = .ok header := by
  have hlink : linkReference (fromHeader header).key
      (fromHeader header).workspaceIdentityHash = header.link := linkReference_header header
  have hnew := header.new_self
  rw [h] at hnew
  unfold intoHeader
  rw [hlink]
  refine refuseIf_bind_eq_ok.mpr ⟨not_not.mpr rfl, ?_⟩
  exact applicationCorruption_eq_ok.mpr hnew

omit [ReceiptCodec] in
theorem StoredTaskProjection.intoApplication_fromApplication
    {key : ReceiptKey} (htask : task.taskId = key.reservedTaskId)
    (hinvocation : task.invocationId = key.invocationId) :
    (fromApplication task).intoApplication key = .ok task := by
  unfold intoApplication
  rw [← htask, ← hinvocation]
  exact applicationCorruption_eq_ok.mpr (taskProjection_new_self task)

/-- **Round trip.** A link with its own length is read back as it was written. -/
theorem StoredEntry.intoCatalogEntry_fromCatalogEntry {entry : LinkEntry} (h : entry.Stamped) :
    (fromCatalogEntry entry).intoCatalogEntry = .ok entry := by
  cases entry with
  | reservation held =>
    refine refuseIf_bind_eq_ok.mpr ⟨?_, ?_⟩
    · rintro (hzero | hzero)
      · exact absurd hzero (Nat.ne_of_gt held.header.version_pos)
      · exact absurd hzero (Nat.ne_of_gt held.header.sequence_pos)
    · exact bind_eq_ok.mpr ⟨held.header, intoHeader_fromHeader _ h, rfl⟩
  | link record =>
    cases record with
    | taskBound r | taskTerminalBound r =>
      refine bind_eq_ok.mpr ⟨r.record, intoHeader_fromHeader _ h, ?_⟩
      refine bind_eq_ok.mpr ⟨r.task,
        StoredTaskProjection.intoApplication_fromApplication r.task_eq r.invocation_eq, ?_⟩
      exact bind_eq_ok.mpr ⟨r, applicationCorruption_eq_ok.mpr r.new_self, rfl⟩
    | taskRetirementPending r =>
      refine bind_eq_ok.mpr ⟨r.record, intoHeader_fromHeader _ h, ?_⟩
      refine bind_eq_ok.mpr ⟨r.retainedDualIdAccounting,
        applicationCorruption_eq_ok.mpr r.retainedDualIdAccounting.new_self, ?_⟩
      refine bind_eq_ok.mpr ⟨r.task,
        StoredTaskProjection.intoApplication_fromApplication r.task_eq r.invocation_eq, ?_⟩
      exact bind_eq_ok.mpr ⟨r, applicationCorruption_eq_ok.mpr r.new_self, rfl⟩

/-! ## The builders -/

section Measured

variable {α : Type} {entry : α → LinkEntry} {finish : LifecycleLinkRecordHeader → Except ReceiptLedgerError α}
  {form : StoredHead → StoredEntry} {key : ReceiptKey} {link : TaskLinkIdentity} {version sequence : Nat}
  {a : α}

/-- The rest of a builder: the link has the given header, and its stored form does not show the
length. -/
def Finishes (entry : α → LinkEntry) (finish : LifecycleLinkRecordHeader → Except ReceiptLedgerError α)
    (form : StoredHead → StoredEntry) : Prop :=
  ∀ header a, finish header = .ok a →
    (entry a).header = header ∧ StoredEntry.fromCatalogEntry (entry a) = form (.fromHeader header)

theorem StoredHead.fromHeader_of_has {header : LifecycleLinkRecordHeader}
    (h : header.Has key link version sequence bytes) : StoredHead.fromHeader header
      = ⟨key, link.workspaceIdentityHash, ReceiptCodec.taskLinkDigest link, version, sequence⟩ := by
  simp only [StoredHead.fromHeader, h.key_eq, h.link_eq, h.version_eq, h.sequence_eq]

/-- What a builder returns has the length it was measured with. -/
theorem measured_ok (hfinish : Finishes entry finish form) (h : measured entry (fun bytes =>
      LifecycleLinkRecordHeader.new key link version sequence bytes >>= finish) = .ok a) :
    (entry a).Stamped ∧ (entry a).header.Has key link version sequence (entry a).header.encodedBytes
      ∧ finish (entry a).header = .ok a := by
  obtain ⟨provisional, hprovisional, h⟩ := bind_eq_ok.mp h
  obtain ⟨-, -, h⟩ := bind_eq_ok.mp h
  obtain ⟨header₁, hheader₁, hp⟩ := bind_eq_ok.mp (applicationCorruption_eq_ok.mp hprovisional)
  obtain ⟨header, hheader, ha⟩ := bind_eq_ok.mp (applicationCorruption_eq_ok.mp h)
  have hhas := LifecycleLinkRecordHeader.new_ok hheader
  obtain ⟨heq, hform⟩ := hfinish header a ha
  obtain ⟨-, hform₁⟩ := hfinish header₁ provisional hp
  have hstored : StoredEntry.fromCatalogEntry (entry a) = StoredEntry.fromCatalogEntry (entry provisional) := by
    rw [hform, hform₁, fromHeader_of_has hhas,
      fromHeader_of_has (LifecycleLinkRecordHeader.new_ok hheader₁)]
  rw [heq]
  refine ⟨?_, ⟨hhas.key_eq, hhas.link_eq, hhas.version_eq, hhas.sequence_eq, rfl⟩, ha⟩
  unfold LinkEntry.Stamped
  rw [heq, hhas.bytes_eq, hstored]

/-- What a builder returns fits. -/
theorem measured_fits (hfinish : Finishes entry finish form) (h : measured entry (fun bytes =>
      LifecycleLinkRecordHeader.new key link version sequence bytes >>= finish) = .ok a) :
    (form ⟨key, link.workspaceIdentityHash, ReceiptCodec.taskLinkDigest link, version,
      sequence⟩).encodedLen ≤ maxTaskLifecycleLinkRecordBytes := by
  obtain ⟨hstamped, hhas, ha⟩ := measured_ok hfinish h
  obtain ⟨-, hform⟩ := hfinish _ a ha
  rw [← fromHeader_of_has hhas, ← hform, ← hstamped]
  exact (entry a).header.bytes_le

/-- A builder succeeds where its link can be finished and fits. -/
theorem measured_succeeds (hfinish : Finishes entry finish form) (hversion : 0 < version)
    (hsequence : 0 < sequence) (hlink : link = linkReference key link.workspaceIdentityHash)
    (hok : ∀ header, header.key = key → ∃ a, finish header = .ok a)
    (hfits : (form ⟨key, link.workspaceIdentityHash, ReceiptCodec.taskLinkDigest link, version,
      sequence⟩).encodedLen ≤ maxTaskLifecycleLinkRecordBytes) :
    ∃ a, measured entry (fun bytes =>
      LifecycleLinkRecordHeader.new key link version sequence bytes >>= finish) = .ok a := by
  have hheader : ∀ bytes, 0 < bytes → bytes ≤ maxTaskLifecycleLinkRecordBytes →
      ∃ header, LifecycleLinkRecordHeader.new key link version sequence bytes = .ok header := by
    intro bytes hpos hle
    unfold LifecycleLinkRecordHeader.new
    rw [dif_pos ⟨hversion, hsequence, hpos⟩, dif_pos hle, dif_pos (by rw [hlink]; exact ⟨rfl, rfl, rfl⟩)]
    exact ⟨_, rfl⟩
  have hmake : ∀ bytes, 0 < bytes → bytes ≤ maxTaskLifecycleLinkRecordBytes → ∃ a,
      (LifecycleLinkRecordHeader.new key link version sequence bytes >>= finish) = .ok a := by
    intro bytes hpos hle
    obtain ⟨header, hnew⟩ := hheader bytes hpos hle
    obtain ⟨a, ha⟩ := hok header (LifecycleLinkRecordHeader.new_ok hnew).key_eq
    exact ⟨a, bind_eq_ok.mpr ⟨header, hnew, ha⟩⟩
  obtain ⟨provisional, hprovisional⟩ := hmake 1 Nat.one_pos (by decide)
  obtain ⟨header₁, hheader₁, hp⟩ := bind_eq_ok.mp hprovisional
  have hhas := LifecycleLinkRecordHeader.new_ok hheader₁
  have hstored := (hfinish header₁ provisional hp).2
  have hlen : (StoredEntry.fromCatalogEntry (entry provisional)).encodedLen
      ≤ maxTaskLifecycleLinkRecordBytes := by
    rw [hstored, fromHeader_of_has hhas]
    exact hfits
  obtain ⟨a, ha⟩ := hmake _ (StoredEntry.encodedLen_pos _) hlen
  refine ⟨a, bind_eq_ok.mpr ⟨provisional, applicationCorruption_eq_ok.mpr hprovisional, ?_⟩⟩
  exact bind_eq_ok.mpr ⟨(), ensureRecordSize_eq_ok.mpr hlen, applicationCorruption_eq_ok.mpr ha⟩

end Measured

theorem finishes_reservation :
    Finishes LinkEntry.reservation (fun header => pure ⟨header⟩) StoredEntry.reservation := by
  intro header held h
  cases h
  exact ⟨rfl, rfl⟩

theorem finishes_taskBound (task : ReceiptTaskProjection) (taskRecordVersion : Nat) (bindEpochMs : EpochMs)
    (phase : AttemptPhase) :
    Finishes (fun record => .link (.taskBound record))
      (fun header => TaskBoundReceipt.new header task taskRecordVersion bindEpochMs phase)
      fun head => .taskBound head (.fromApplication task) taskRecordVersion bindEpochMs phase := by
  intro header record h
  obtain ⟨rfl, rfl, rfl, rfl, rfl⟩ := TaskBoundReceipt.new_ok h
  exact ⟨rfl, rfl⟩

theorem finishes_taskTerminalBound (task : ReceiptTaskProjection) (taskRecordVersion : Nat)
    (status : ClosedTerminalStatus) (digest : TerminalDigest) (terminalEpochMs expiresAtEpochMs : EpochMs) :
    Finishes (fun record => .link (.taskTerminalBound record))
      (fun header => TaskTerminalBoundReceipt.new header task taskRecordVersion status digest
        terminalEpochMs expiresAtEpochMs)
      fun head => .taskTerminalBound head (.fromApplication task) taskRecordVersion status digest
        terminalEpochMs expiresAtEpochMs := by
  intro header record h
  obtain ⟨rfl, rfl, rfl, rfl, rfl, rfl, rfl⟩ := TaskTerminalBoundReceipt.new_ok h
  exact ⟨rfl, rfl⟩

theorem finishes_taskRetirementPending (task : ReceiptTaskProjection) (version : Nat)
    (status : ClosedTerminalStatus) (digest : TerminalDigest) (terminalEpochMs expiresAtEpochMs : EpochMs)
    (bytes : Nat) (accounting : RetainedDualIdAccounting) :
    Finishes (fun record => .link (.taskRetirementPending record))
      (fun header => TaskRetirementPendingReceipt.new header task version status digest terminalEpochMs
        expiresAtEpochMs bytes accounting)
      fun head => .taskRetirementPending head (.fromApplication task) version status digest
        terminalEpochMs expiresAtEpochMs bytes accounting.invocationIndexBytes
        accounting.reservedTaskIndexBytes := by
  intro header record h
  obtain ⟨rfl, rfl, rfl, rfl, rfl, rfl, rfl, rfl, rfl⟩ := TaskRetirementPendingReceipt.new_ok h
  exact ⟨rfl, rfl⟩

end RoundTrip

end Unica.Link
