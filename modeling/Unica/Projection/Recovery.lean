import Unica.Projection.Scan
import Unica.Link.Fits
import Unica.Task.Machine

/-!
# Ending a Task at startup

A recovered Task gets a terminal record first and a terminal link second. Each of the two
stores orders the clock reading against the record in its own way, and the link has to
fit: the conditions under which both writes succeed are stated here, with what one Task's
recovery leaves of the others.
-/

namespace Unica.Projection

open Lib Receipt Unica.Task Link Prog V5TaskProjectionFailure StoredTask

/-! ## One store operation of the projection -/

section Steps

variable [ReceiptCodec] {V : Verdict → Prop} {s : Stores} {α : Type} {keep : α → Prop} {C : Prop}
  {write : α → TaskStore → Prop} {keyDigest : ReceiptKeyDigest}

theorem onTasks_ends {m : TaskM α} (h : (Task.discipline V).Updates V m s.tasks keep C write) :
    Ends V (onTasks keyDigest m) s (fun a s' => s'.links = s.links
        ∧ (((Task.discipline V).same s.tasks s'.tasks ∧ keep a) ∨ write a s'.tasks))
      (fun _ s' => s'.links = s.links ∧ (((Task.discipline V).same s.tasks s'.tasks ∧ (V .fail ∨ C))
        ∨ (∃ a, write a s'.tasks) ∧ V .fail))
      fun s' => s'.links = s.links ∧ V .crash
        ∧ ((Task.discipline V).same s.tasks s'.tasks ∨ ∃ a, write a s'.tasks) := by
  have hends : Ends V m s.tasks
      (fun a t => ((Task.discipline V).same s.tasks t ∧ keep a) ∨ write a t)
      (fun _ t => ((Task.discipline V).same s.tasks t ∧ (V .fail ∨ C)) ∨ (∃ a, write a t) ∧ V .fail)
      fun t => V .crash ∧ ((Task.discipline V).same s.tasks t ∨ ∃ a, write a t) := by
    refine Sat.mono h fun out t => ?_
    rintro (⟨hsame, hout⟩ | ⟨a, ha, hout⟩)
    · cases out with
      | ok b => exact .inl ⟨hsame, hout⟩
      | error e => exact .inl ⟨hsame, hout.2⟩
      | crashed => exact ⟨hout, .inl hsame⟩
    · cases out with
      | ok b => exact .inr (hout ▸ ha)
      | error e => exact .inr ⟨⟨a, ha⟩, hout.2⟩
      | crashed => exact ⟨hout, .inr ⟨a, ha⟩⟩
  exact .within hends (fun _ _ h => ⟨rfl, h⟩) (fun _ _ h => ⟨rfl, h⟩) fun _ h => ⟨rfl, h⟩

/-! Without faults, an error of a store operation is a refusal. -/

theorem onTasks_proceeds {m : TaskM α}
    (h : (Task.discipline Proceeds).Updates Proceeds m s.tasks keep C write) :
    Ends Proceeds (onTasks keyDigest m) s (fun a s' => s'.links = s.links
        ∧ (((Task.discipline Proceeds).same s.tasks s'.tasks ∧ keep a) ∨ write a s'.tasks))
      (fun _ _ => C) fun _ => False := by
  refine .mono (onTasks_ends h) (fun _ _ h => h) ?_ fun _ h => proceeds_crash h.2.1
  rintro e s' ⟨-, ⟨-, hfail | hc⟩ | ⟨-, hfail⟩⟩
  · exact absurd hfail proceeds_fail
  · exact hc
  · exact absurd hfail proceeds_fail

end Steps

/-! ## The record of a recovered Task -/

section Records

variable {r : V5StoredInvocationRecord} {reason : RecoveryTerminalReason} {digest : TerminalDigest}
  {now : EpochMs}

/-- The Task as its links describe it. -/
def storedTask (r : V5StoredInvocationRecord) : StoredTask :=
  ⟨r.taskId, r.invocationId, r.createdAtEpochMs, r.updatedAtEpochMs, r.ttlMs, r.pollIntervalMs, r.version⟩

def closedStatus : RecoveryTerminalReason → ClosedTerminalStatus
  | .cancelled => .cancelled
  | .interruptedBeforeExecution | .outcomeUncertain => .failed

theorem recoveryTerminal_recovered :
    recoveryTerminal (r.recovered reason digest now).task = .ok (closedStatus reason, digest, now) := by
  cases reason <;> rfl

theorem closedTerminal_recovered :
    closedTerminal (r.recovered reason digest now).task = some (closedStatus reason, digest, now) := by
  cases reason <;> rfl

theorem isTerminal_recovered : (r.recovered reason digest now).task.isTerminal = true := by
  cases reason <;> rfl

theorem isTerminal_of_closedTerminal {task : V5StoredTask}
    {closed : ClosedTerminalStatus × TerminalDigest × EpochMs} (h : closedTerminal task = some closed) :
    task.isTerminal = true := by
  cases task <;> first | rfl | cases h

variable [TaskCodec]

/-- The terminal epoch of a recovered record has to lie in the record's life. -/
theorem publishable_recovered (hr : Publishable r) :
    Publishable (r.recovered reason digest now) ↔ r.createdAtEpochMs ≤ now := by
  obtain ⟨hordered, -⟩ := validateRecord_eq_ok.mp hr.1
  have hepoch : (r.recovered reason digest now).task.terminalEpochMs = some now := by cases reason <;> rfl
  have hresult : validateResult (r.recovered reason digest now).task = .ok () := by cases reason <;> rfl
  constructor
  · intro h
    obtain ⟨hterminal, -⟩ := validateRecord_eq_ok.mp h.1
    exact (hterminal.terminal_within now (by rw [hepoch]; rfl)).1
  · intro hnow
    refine ⟨validateRecord_eq_ok.mpr ⟨⟨Nat.succ_pos _, ?_, fun epoch hmem => ?_⟩, hresult⟩,
      TaskCodec.recordLength_le _ (by cases reason <;> nofun)⟩
    · exact Nat.le_trans hordered.created_le_updated (Nat.le_max_left _ _)
    · rw [hepoch] at hmem
      cases hmem
      exact ⟨hnow, Nat.le_max_right _ _⟩

omit [TaskCodec] in
/-- A valid record whose ttl and poll interval are a link's has a projection. -/
theorem receiptTaskProjectionFromStore_ok (hr : r.Ordered) (httl : 0 < r.ttlMs) (hpoll : 0 < r.pollIntervalMs) :
    ∃ task, receiptTaskProjectionFromStore r = .ok task ∧ task.toStoredTask = storedTask r := by
  unfold receiptTaskProjectionFromStore ReceiptTaskProjection.new
  rw [dif_pos hr.created_le_updated, dif_pos ⟨httl, hpoll, hr.version_pos⟩]
  exact ⟨_, rfl, rfl⟩

end Records

/-! ## Publishing the terminal link -/

variable {task : ReceiptTaskProjection}

section Publishing

variable [TaskCodec] {s : Stores} {expected : TaskBoundReceipt} {r : V5StoredInvocationRecord}
  {status : ClosedTerminalStatus} {digest : TerminalDigest} {epoch : EpochMs}

/-- A link built for the expected link's key and the record's Task describes the record's Task. -/
theorem SameTask.of_built {header header' : LifecycleLinkRecordHeader} {task task' : ReceiptTaskProjection}
    (h : SameTask header task r) (hkey : header'.key = header.key) (hlink : header'.link = header.link)
    (htask : task'.toStoredTask = storedTask r) : SameTask header' task' r := by
  have hfield : ∀ {α : Type} (f : StoredTask → α), f task'.toStoredTask = f (storedTask r) := fun f =>
    congrArg f htask
  refine ⟨?_, ?_, ?_, ?_, ?_, ?_, ?_, ?_, ?_, hfield taskId, hfield invocationId,
    hfield createdAtEpochMs, hfield ttlMs, hfield pollIntervalMs⟩
  · rw [hkey, h.digest_eq]
  · rw [hkey, h.key_task_eq]
  · rw [hkey, h.key_invocation_eq]
  · rw [hkey, h.tool_eq]
  · rw [hkey, h.arguments_eq]
  · rw [hlink, h.link_digest_eq]
  · rw [hlink, h.link_task_eq]
  · rw [hlink, h.link_invocation_eq]
  · rw [hlink, h.workspace_eq]

/-- The terminal link of the record can be written at the given sequence. -/
structure Linkable (expected : TaskBoundReceipt) (r : V5StoredInvocationRecord)
    (status : ClosedTerminalStatus) (epoch : EpochMs) (sequence : Nat) : Prop where
  updated_eq : r.updatedAtEpochMs = epoch
  room : TerminalRoom expected sequence (storedTask r) status epoch

/-- The record has its terminal link, on disk and in memory, and nothing else changed. -/
structure Stores.Settles (s s' : Stores) (r : V5StoredInvocationRecord) (link : TaskTerminalBoundReceipt) :
    Prop where
  tasks_eq : s'.tasks = s.tasks
  link_eq : s'.link r.receiptKeyDigest = some (.link (.taskTerminalBound link))
  others : ∀ d, d ≠ r.receiptKeyDigest → s'.link d = s.link d
  durable : s'.links.OnDisk s'.links.memory
  confirms : taskTerminalBoundMatchesRecord link r = .ok true

theorem publishTerminalLink_ends (hdisk : s.links.OnDisk s.links.memory)
    (hlink : s.link (receiptKeyDigest expected.record.key) = some (.link (.taskBound expected)))
    (hsame : SameTask expected.record expected.task r) (hr : r.Ordered)
    (hclosed : closedTerminal r.task = some (status, digest, epoch)) :
    Ends Proceeds (publishTerminalLink expected r (status, digest, epoch)) s
      (fun link s' => Linkable expected r status epoch (s.links.memory.mutationSequence + 1)
        ∧ s.Settles s' r link)
      (fun _ _ => ¬ Linkable expected r status epoch (s.links.memory.mutationSequence + 1))
      fun _ => False := by
  obtain ⟨task, htask, hstored⟩ := receiptTaskProjectionFromStore_ok hr
    (hsame.ttl_eq ▸ expected.task.ttl_pos) (hsame.poll_eq ▸ expected.task.poll_pos)
  -- the plan of the link store succeeds exactly where the link can be written
  have hplan : (∃ planned, planTerminalBound expected task r.version status digest epoch s.links.memory
      = .ok planned) ↔ Linkable expected r status epoch (s.links.memory.mutationSequence + 1) := by
    rw [planTerminalBound_succeeds_iff hdisk.sound hlink, hstored]
    constructor
    · rintro ⟨hof, hroom⟩
      exact ⟨hof.updated_eq, hroom⟩
    · rintro ⟨hupdated, hroom⟩
      exact ⟨⟨hsame.key_task_eq.symm, hsame.key_invocation_eq.symm, rfl, hupdated⟩, hroom⟩
  unfold publishTerminalLink
  rw [htask]
  refine .bind (P := fun a t => a = task ∧ t = s) (.pure ⟨rfl, rfl⟩) ?_
  rintro _ s ⟨rfl, rfl⟩
  refine .within ((publishTaskTerminalBound_mutates hdisk.sound).proceeds hdisk) ?_ ?_ fun _ h => h
  · rintro link s' ⟨hdisk', -, ⟨-, hfalse⟩ | hnext⟩
    · exact hfalse.elim
    obtain ⟨-, hinserts, hkey, hlinkEq, hlinkTask, hversion, hstatus, hdigest, hepoch⟩ :=
      planTerminalBound_ok hdisk.sound hnext
    have hentry : (LinkEntry.link (.taskTerminalBound link)).keyDigest = r.receiptKeyDigest := by
      rw [keyDigest_of_key (e := .link (.taskTerminalBound link)) hkey, hsame.digest_eq]
    refine ⟨hplan.mp ⟨_, hnext⟩, rfl, ?_, fun d hd => ?_, hdisk', ?_⟩
    · rw [← hentry]
      exact hinserts.lookup_eq
    · exact hinserts.plans.frame d (hentry ▸ hd)
    · unfold taskTerminalBoundMatchesRecord terminalLinkMatchesRecord terminalRecordMatches
      rw [hversion, hstatus, hdigest, hepoch, hlinkTask, if_pos (hsame.of_built hkey hlinkEq hstored),
        htask, hclosed]
      exact congrArg Except.ok (by simp)
  · intro e s' hrefused hlinkable
    obtain ⟨planned, hplanned⟩ := hplan.mpr hlinkable
    exact hrefused planned hplanned

end Publishing

/-! ## Ending one Task -/

section Ending

variable [TaskCodec] {s s' : Stores} {expected : TaskBoundReceipt} {r r' : V5StoredInvocationRecord}
  {reason : RecoveryTerminalReason} {now : EpochMs}

/-- A link keeps describing the Task of a record that advances. -/
theorem SameTask.advances {header : LifecycleLinkRecordHeader}
    (h : SameTask header task r) (ha : Advances r r') : SameTask header task r' := by
  have htask : r'.taskId = r.taskId := congrArg V5TaskIdentity.taskId ha.identity_eq
  have hinvocation : r'.invocationId = r.invocationId := congrArg V5TaskIdentity.invocationId ha.identity_eq
  have hdigest : r'.receiptKeyDigest = r.receiptKeyDigest :=
    congrArg V5TaskIdentity.receiptKeyDigest ha.identity_eq
  exact ⟨hdigest ▸ h.digest_eq, htask ▸ h.key_task_eq, hinvocation ▸ h.key_invocation_eq,
    ha.tool_eq ▸ h.tool_eq, ha.arguments_eq ▸ h.arguments_eq, hdigest ▸ h.link_digest_eq,
    htask ▸ h.link_task_eq, hinvocation ▸ h.link_invocation_eq, ha.workspace_eq ▸ h.workspace_eq,
    htask ▸ h.task_eq, hinvocation ▸ h.invocation_eq, ha.created_eq ▸ h.created_eq, ha.ttl_eq ▸ h.ttl_eq,
    ha.poll_eq ▸ h.poll_eq⟩

/-- A Task that is Queued or Working, with the link that matches it. -/
structure Stores.Bound (s : Stores) (expected : TaskBoundReceipt) (r : V5StoredInvocationRecord) : Prop where
  durable : s.links.OnDisk s.links.memory
  link_eq : s.link (receiptKeyDigest expected.record.key) = some (.link (.taskBound expected))
  holds : s.tasks.Holds r.taskId r
  active : r.task.isTerminal = false
  matches_record : taskBoundMatchesRecord expected r

/-- A Task that has ended: a terminal record and, on disk, the terminal link that confirms it. -/
structure Stores.Ended (s : Stores) (r : V5StoredInvocationRecord) (link : TaskTerminalBoundReceipt) :
    Prop where
  holds : s.tasks.Holds r.taskId r
  terminal : r.task.isTerminal = true
  link_eq : s.link r.receiptKeyDigest = some (.link (.taskTerminalBound link))
  durable : s.links.OnDisk s.links.memory
  confirms : taskTerminalBoundMatchesRecord link r = .ok true

def Stores.Closed (s : Stores) (identity : V5TaskIdentity) : Prop :=
  ∃ r link, r.identity = identity ∧ s.Ended r link

/-- The conditions on the record, its link and the clock under which both writes succeed. -/
structure Recoverable (expected : TaskBoundReceipt) (r : V5StoredInvocationRecord)
    (reason : RecoveryTerminalReason) (now : EpochMs) (sequence : Nat) : Prop where
  updated_le : r.updatedAtEpochMs ≤ now
  version_lt : r.version + 1 < wordBound
  room : TerminalRoom expected sequence { storedTask r with updatedAtEpochMs := now, version := r.version + 1 }
    (closedStatus reason) now

/-- The first write succeeds even where the clock is behind the record's last change, as long as
it is not behind its creation. -/
theorem terminalizeRecoveredExact_ends (hb : s.Bound expected r) (hvalid : reason.validState r = true) :
    Ends Proceeds (onTasks r.receiptKeyDigest (terminalizeRecoveredExact r.identity r.version reason now)) s
      (fun a s' => (r.version + 1 < wordBound ∧ r.createdAtEpochMs ≤ now) ∧ s'.links = s.links
        ∧ s.tasks.Wrote Proceeds s'.tasks a ∧ ∃ digest, a = r.recovered reason digest now)
      (fun _ _ => ¬ (r.version + 1 < wordBound ∧ r.createdAtEpochMs ≤ now)) fun _ => False := by
  have hactive : ¬ r.task.isTerminal = true := by
    rw [hb.active]
    decide
  refine .mono (onTasks_proceeds terminalizeRecoveredExact_updates) ?_ ?_ fun _ h => h
  · rintro a s' ⟨hlinks, ⟨-, hheld, -, -, hmatches⟩ | ⟨r', digest, hheld, -, -, hlt, -, -, -, rfl, hwrote⟩⟩
    · obtain rfl := hb.holds.unique hheld
      have hterminal : a.task.isTerminal = true := by
        cases htask : a.task <;> rw [htask] at hmatches <;> first | rfl | cases reason <;> cases hmatches
      exact absurd hterminal hactive
    · obtain rfl := hb.holds.unique hheld
      exact ⟨⟨hlt, (publishable_recovered hb.holds.publishable).mp hwrote.publishable⟩, hlinks, hwrote,
        digest, rfl⟩
  · rintro e s' hrefused ⟨hlt, hcreated⟩
    refine hrefused r hb.holds ⟨rfl, fun h => absurd h hactive, fun _ => ⟨rfl, hvalid, hlt, fun digest => ?_⟩⟩
    exact (publishable_recovered hb.holds.publishable).mpr hcreated

theorem recoverable_iff (digest : TerminalDigest) {sequence : Nat} (hr : r.Ordered) :
    Recoverable expected r reason now sequence ↔ (r.version + 1 < wordBound ∧ r.createdAtEpochMs ≤ now)
      ∧ Linkable expected (r.recovered reason digest now) (closedStatus reason) now sequence := by
  have hmax : (r.recovered reason digest now).updatedAtEpochMs = now ↔ r.updatedAtEpochMs ≤ now :=
    max_eq_right_iff
  have hstored : r.updatedAtEpochMs ≤ now → storedTask (r.recovered reason digest now)
      = { storedTask r with updatedAtEpochMs := now, version := r.version + 1 } := by
    intro hle
    have h := hmax.mpr hle
    unfold storedTask
    rw [h]
    rfl
  constructor
  · intro h
    refine ⟨⟨h.version_lt, Nat.le_trans hr.created_le_updated h.updated_le⟩, hmax.mpr h.updated_le, ?_⟩
    rw [hstored h.updated_le]
    exact h.room
  · rintro ⟨⟨hlt, -⟩, hupdated, hroom⟩
    have hle := hmax.mp hupdated
    rw [hstored hle] at hroom
    exact ⟨hle, hlt, hroom⟩

/-- **Ending one Task.** Both writes succeed exactly where the Task is recoverable. -/
theorem terminalizeRecoveredBound_ends (hb : s.Bound expected r) (hvalid : reason.validState r = true) :
    Ends Proceeds (terminalizeRecoveredBound expected r reason now) s
      (fun _ s' => Recoverable expected r reason now (s.links.memory.mutationSequence + 1)
        ∧ s'.Closed r.identity)
      (fun _ _ => ¬ Recoverable expected r reason now (s.links.memory.mutationSequence + 1))
      fun _ => False := by
  have hordered := (validateRecord_eq_ok.mp hb.holds.publishable.1).1
  refine .bind (.mono (terminalizeRecoveredExact_ends hb hvalid) (fun _ _ h => h) ?_ fun _ h => h) ?_
  · intro e s' hrefused hrecoverable
    exact hrefused ((recoverable_iff 0 hordered).mp hrecoverable).1
  rintro _ s₁ ⟨hfirst, hlinks, hwrote, digest, rfl⟩
  have hadvances : Advances r (r.recovered reason digest now) := r.advances_recovered now hb.active
  have hordered' := (validateRecord_eq_ok.mp hwrote.publishable.1).1
  rw [recoveryTerminal_recovered]
  refine .bind (P := fun closed t => closed = (closedStatus reason, digest, now) ∧ t = s₁)
    (.pure ⟨rfl, rfl⟩) ?_
  rintro _ s₁ ⟨rfl, rfl⟩
  have hpublish := publishTerminalLink_ends (hlinks ▸ hb.durable)
    (by rw [Stores.link, hlinks]; exact hb.link_eq) (hb.matches_record.1.advances hadvances) hordered'
    closedTerminal_recovered
  rw [hlinks] at hpublish
  refine .mono hpublish ?_ ?_ fun _ h => h
  · rintro link s₂ ⟨hlinkable, hsettles⟩
    refine ⟨(recoverable_iff digest hordered).mpr ⟨hfirst, hlinkable⟩, _, link, hadvances.identity_eq, ?_⟩
    exact ⟨hsettles.tasks_eq ▸ ⟨hwrote.lookup_eq, rfl, hwrote.publishable⟩, isTerminal_recovered, hsettles.link_eq,
      hsettles.durable, hsettles.confirms⟩
  · intro e s₂ hrefused hrecoverable
    exact hrefused ((recoverable_iff digest hordered).mp hrecoverable).2

end Ending

end Unica.Projection
