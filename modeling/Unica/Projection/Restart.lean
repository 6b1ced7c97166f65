import Unica.Projection.Recovery

/-!
# A whole startup

A restarted process reads both stores from disk, accepts or refuses what it finds and
carries out its plans. Between the two writes that end a Task a process can stop, and
the next one has to take it from there: the record is then one version ahead of the link,
or two where it was ahead already.
-/

namespace Unica.Projection

open Lib Receipt Unica.Task Link Prog V5TaskProjectionFailure Finmap LinkStore Table Option

section Restart

variable [TaskCodec] {s s' : Stores} {c : LinkCatalog} {clock : Clock}

/-- Nothing in the two directories keeps a process from opening them. -/
structure Stores.Clean (s : Stores) : Prop where
  readable : s.Readable
  tasks_clean : s.tasks.quarantined = 0
  links_clean : s.links.quarantined = 0

/-- The stores of a new process: what is on disk, and handles that know it. -/
structure Stores.Restarted (s : Stores) (c : LinkCatalog) (s' : Stores) : Prop where
  records_eq : s'.tasks.records = s.tasks.records
  memory_eq : s'.links.memory = c
  durable : s'.links.OnDisk s'.links.memory
  clean : s'.Clean

theorem openStores_ends (hdisk : s.links.OnDisk c) (hclean : s.Clean) :
    Ends Proceeds openStores s (fun recovery s' => s.Restarted c s' ∧ Noted s' recovery)
      (fun _ _ => False) fun _ => False := by
  have htasks : Ends Proceeds (openInspectOnly.within Stores.tasks Stores.setTasks .tasks) s
      (fun recovery t => Opened s.tasks recovery t.tasks ∧ t.links = s.links)
      (fun (_ : StartupRefusal) _ => False) fun _ => False := by
    refine .within openInspectOnly_ends (fun _ _ h => ⟨h, rfl⟩) ?_ fun _ h => proceeds_crash h.2
    rintro e t ⟨-, hfail | hquarantined | ⟨taskId, r, hr, hnot⟩⟩
    · exact proceeds_fail hfail
    · exact absurd hclean.tasks_clean hquarantined.ne'
    · exact hnot (hclean.readable taskId r hr)
  refine .bind htasks ?_
  rintro recovery t ⟨hopened, hlinks⟩
  have hlinksOpen : Ends Proceeds (openLinkStore.within Stores.links Stores.setLinks .links) t
      (fun _ u => u.tasks = t.tasks ∧ u.links.OnDisk c ∧ u.links.memory = c ∧ u.links.quarantined = 0)
      (fun (_ : StartupRefusal) _ => False) fun _ => False := by
    refine .within (openLinkStore_ends (hlinks ▸ hdisk)) ?_ ?_ fun _ h => proceeds_crash h.2
    · rintro _ u ⟨hsnapshot, hmemory, -, hquarantined⟩
      refine ⟨rfl, hdisk.congr (hsnapshot.trans (congrArg snapshot hlinks)), hmemory, ?_⟩
      exact hquarantined.resolve_right fun h => h.elim proceeds_fail proceeds_crash
    · rintro e u ⟨-, -, hfail | hquarantined⟩
      · exact proceeds_fail hfail
      · rw [hlinks, hclean.links_clean] at hquarantined
        exact Nat.lt_irrefl 0 hquarantined
  refine .bind hlinksOpen ?_
  rintro _ u ⟨hu, hdisk', hmemory, hquarantined⟩
  have hrecords := hu ▸ hopened.records_eq
  have hreadable : u.Readable := fun taskId r hr =>
    (hclean.readable taskId r (hrecords ▸ hr)).congr hrecords
  refine .pure ⟨⟨hrecords, hmemory, hmemory.symm ▸ hdisk', hreadable, hu ▸ hopened.clean.2, hquarantined⟩, ?_⟩
  unfold Noted
  rw [hrecords]
  exact hopened.noted.imp fun _ _ ⟨r, hr, he⟩ => ⟨r, hr.congr hrecords, he⟩

/-- A startup opens the stores, refuses what it cannot accept and carries out its plans. -/
theorem startup_ends {Q : Stores → Prop} {E : Prop} (hdisk : s.links.OnDisk c) (hclean : s.Clean)
    (hrefuse : ∀ s', s.Restarted c s' → ¬ s'.Scannable → E)
    (hcarry : ∀ s', s.Restarted c s' → s'.Scannable →
      Ends Proceeds (carryOutAll clock s'.startupPlans) s' (fun _ => Q) (fun _ _ => E) fun _ => False) :
    Ends Proceeds (startup clock) s (fun _ => Q) (fun _ _ => E) fun _ => False := by
  refine .bind (.mono (openStores_ends hdisk hclean) (fun _ _ h => h) (fun _ _ h => h.elim)
    fun _ h => h) ?_
  rintro recovery s' ⟨hrestarted, hnoted⟩
  have hreconcile : Ends Proceeds (reconcileMaterializedStartup clock recovery) s' (fun _ => Q)
      (fun _ _ => E) fun _ => False := by
    have hscan := looks_scanStores (V := Proceeds) hrestarted.clean.readable hrestarted.durable.sound hnoted
    refine .bind (.mono hscan (fun _ _ h => h.2) ?_ fun _ h => proceeds_crash h.2) ?_
    · rintro e t ⟨-, -, hfail | hnot⟩
      · exact absurd hfail proceeds_fail
      · exact hrefuse s' hrestarted hnot
    · rintro plans t ⟨rfl, hscannable, rfl⟩
      exact hcarry _ hrestarted hscannable
  exact .within hreconcile (fun _ _ h => h) (fun _ _ h => h) fun _ h => h

end Restart

/-! ## One Task among settled ones -/

section Alone

variable [TaskCodec] {s s' : Stores} {d : ReceiptKeyDigest} {link : TaskLifecycleLinkRecord}
  {r : V5StoredInvocationRecord}

/-- Every record has its link, and no link but the one under the digest asks a startup for
anything. -/
structure Stores.Alone (s : Stores) (d : ReceiptKeyDigest) : Prop where
  linked : s.Linked
  others : ∀ d' link, d' ≠ d → s.link d' = some (.link link) → s.Accepts link ∧ s.plans (.link link) = []

theorem Stores.Alone.scannable_iff (h : s.Alone d) (hlink : s.link d = some (.link link)) :
    s.Scannable ↔ s.Accepts link := by
  constructor
  · intro hscannable
    exact hscannable.accepts d link hlink
  · intro haccepts
    refine ⟨fun d' link' hlink' => ?_, h.linked⟩
    by_cases heq : d' = d
    · subst heq
      cases hlink.symm.trans hlink'
      exact haccepts
    · exact (h.others d' link' heq hlink').1

theorem Stores.Alone.startupPlans_eq (h : s.Alone d) (hlink : s.link d = some (.link link)) :
    s.startupPlans = s.plans (.link link) := by
  refine flatMap_values_of_unique hlink fun d' entry hne hentry => ?_
  cases entry with
  | reservation held => rfl
  | link link' => exact (h.others d' link' hne hentry).2

/-- The Task stays alone when its own record is replaced. -/
theorem Stores.Alone.replaced (h : s.Alone d) (hsound : s.links.memory.Sound)
    (hlink : s.link d = some (.link link)) (hid : link.header.key.reservedTaskId = r.taskId)
    (hrecords : s'.tasks.records = s.tasks.records.insert r.taskId r)
    (hmemory : s'.links.memory = s.links.memory) : s'.Alone d := by
  have hlinks : ∀ d', s'.link d' = s.link d' := fun d' => by rw [Stores.link, hmemory]; rfl
  refine ⟨?_, fun d' link' hne hlink' => ?_⟩
  · intro taskId r' hr'
    by_cases heq : taskId = r.taskId
    · exact ⟨d, link, (hlinks d).trans hlink, hid.trans heq.symm⟩
    · rw [hrecords, lookup_insert_of_ne _ heq] at hr'
      obtain ⟨d', link', hlink', htask⟩ := h.linked taskId r' hr'
      exact ⟨d', link', (hlinks d').trans hlink', htask⟩
  · rw [hlinks] at hlink'
    -- another link belongs to another Task, whose record is the one it was
    have htask : link'.header.key.reservedTaskId ≠ r.taskId := by
      intro heq
      have hown := hsound.tasks.lookup_of hlink
      have hother := hsound.tasks.lookup_of hlink'
      have hkey : (LinkEntry.link link').header.key.reservedTaskId
          = (LinkEntry.link link).header.key.reservedTaskId := heq.trans hid.symm
      rw [hkey] at hother
      exact hne (some.inj (hother.symm.trans hown))
    have hrecord : s'.record link' = s.record link' := by
      unfold Stores.record
      rw [hrecords, lookup_insert_of_ne _ htask]
    simp only [Stores.Accepts, Stores.plans, hrecord]
    exact h.others d' link' hne hlink'

end Alone

/-! ## Between the two writes -/

section Between

variable [TaskCodec] {s s' : Stores} {expected : TaskBoundReceipt} {r : V5StoredInvocationRecord}
  {reason : RecoveryTerminalReason} {now : EpochMs} {clock : Clock}

/-- A terminal record is accepted where it matches its link, and only the link is left to do. -/
theorem confirmLink_terminal {plans : List StartupTaskTerminalizationPlan} (hterminal : r.task.isTerminal = true) :
    confirmLink (.taskBound expected) r = .ok plans
      ↔ taskBoundMatchesRecord expected r ∧ plans = [⟨expected, r, none⟩] := by
  simp only [confirmLink, preflightTaskBoundStartup]
  rw [if_pos hterminal]
  constructor
  · intro h
    obtain ⟨plan, hplan, h⟩ := bind_eq_ok.mp h
    obtain ⟨hmatches, hplan⟩ := refuseIf_bind_eq_ok.mp hplan
    cases hplan
    cases h
    exact ⟨not_not.mp hmatches, rfl⟩
  · rintro ⟨hmatches, rfl⟩
    exact bind_eq_ok.mpr ⟨_, refuseIf_bind_eq_ok.mpr ⟨not_not.mpr hmatches, rfl⟩, rfl⟩

/-- A terminal record whose link is missing. -/
structure Stores.Halfway (s : Stores) (expected : TaskBoundReceipt) (r : V5StoredInvocationRecord)
    (status : ClosedTerminalStatus) (digest : TerminalDigest) (epoch : EpochMs) : Prop where
  durable : s.links.OnDisk s.links.memory
  clean : s.Clean
  alone : s.Alone (receiptKeyDigest expected.record.key)
  link_eq : s.link (receiptKeyDigest expected.record.key) = some (.link (.taskBound expected))
  holds : s.tasks.Holds r.taskId r
  same : SameTask expected.record expected.task r
  closed : closedTerminal r.task = some (status, digest, epoch)

variable {status : ClosedTerminalStatus} {digest : TerminalDigest} {epoch : EpochMs}

section

variable (h : s.Halfway expected r status digest epoch)
include h

theorem Stores.Halfway.restarted (hrestarted : s.Restarted s.links.memory s') : s'.Halfway expected r status digest epoch := by
  have hlinks : ∀ d, s'.link d = s.link d := fun d => by rw [link, hrestarted.memory_eq]; rfl
  have hrecord : ∀ link, s'.record link = s.record link := fun link => by
    rw [record, hrestarted.records_eq]
    rfl
  refine ⟨hrestarted.durable, hrestarted.clean, ⟨?_, ?_⟩, (hlinks _).trans h.link_eq,
    h.holds.congr hrestarted.records_eq, h.same, h.closed⟩
  · intro taskId r' hr'
    rw [hrestarted.records_eq] at hr'
    obtain ⟨d, link, hlink, htask⟩ := h.alone.linked taskId r' hr'
    exact ⟨d, link, (hlinks d).trans hlink, htask⟩
  · intro d link hne hlink
    simp only [Accepts, plans, hrecord link]
    exact h.alone.others d link hne ((hlinks d).symm.trans hlink)

theorem Stores.Halfway.scannable_iff : s.Scannable ↔ taskBoundMatchesRecord expected r := by
  have hrecord : s.record (.taskBound expected) = some r := by
    have hid := h.same.key_task_eq
    change s.tasks.records.lookup expected.record.key.reservedTaskId = some r
    rw [hid]
    exact h.holds.lookup_eq
  rw [h.alone.scannable_iff h.link_eq, accepts_of_record hrecord]
  have hterminal := isTerminal_of_closedTerminal h.closed
  constructor
  · rintro ⟨plans, hplans⟩
    exact ((confirmLink_terminal hterminal).mp hplans).1
  · intro hmatches
    exact ⟨_, (confirmLink_terminal hterminal).mpr ⟨hmatches, rfl⟩⟩

/-- **The second write after a stop.** The next startup completes the link, whatever its clock
reads, where the record is at most one step ahead of its link and the link can be written. -/
theorem Stores.Halfway.startup_ends (hmatches : taskBoundMatchesRecord expected r)
    (hlinkable : Linkable expected r status epoch (s.links.memory.mutationSequence + 1)) :
    Ends Proceeds (startup clock) s (fun _ s' => s'.Closed r.identity) (fun _ _ => False) fun _ => False := by
  refine Projection.startup_ends h.durable h.clean ?_ ?_
  · intro s' hrestarted hnot
    exact hnot ((h.restarted hrestarted).scannable_iff.mpr hmatches)
  intro s' hrestarted hscannable
  have h' := h.restarted hrestarted
  have hterminal := isTerminal_of_closedTerminal h.closed
  have hid := h.same.key_task_eq
  have hrecord : s'.record (.taskBound expected) = some r := by
    change s'.tasks.records.lookup expected.record.key.reservedTaskId = some r
    rw [hid]
    exact h'.holds.lookup_eq
  have hplans : s'.startupPlans = [⟨expected, r, none⟩] := by
    rw [h'.alone.startupPlans_eq h'.link_eq]
    exact Stores.plans_of_record hrecord ((confirmLink_terminal hterminal).mpr ⟨hmatches, rfl⟩)
  have hcarry : Ends Proceeds (carryOut clock ⟨expected, r, none⟩) s' (fun _ t => t.Closed r.identity)
      (fun _ _ => False) fun _ => False := by
    change Ends Proceeds (completeRecoveredTerminalBound expected r) s' _ _ _
    unfold completeRecoveredTerminalBound
    rw [h.closed]
    refine .bind (P := fun closed t => closed = (status, digest, epoch) ∧ t = s')
      (.pure ⟨rfl, rfl⟩) ?_
    rintro _ s' ⟨rfl, rfl⟩
    have hordered := (validateRecord_eq_ok.mp h.holds.publishable.1).1
    refine .mono (publishTerminalLink_ends h'.durable h'.link_eq h.same hordered h.closed) ?_ ?_
      fun _ h => h
    · rintro link t ⟨-, hsettles⟩
      exact ⟨r, link, rfl, hsettles.tasks_eq ▸ h'.holds, hterminal, hsettles.link_eq, hsettles.durable,
        hsettles.confirms⟩
    · intro e t hrefused
      rw [hrestarted.memory_eq] at hrefused
      exact hrefused hlinkable
  rw [hplans]
  refine .bind hcarry fun _ t ht => ?_
  exact .pure ht

end

/-- The state between the two writes of a recovery. -/
theorem Stores.Bound.halfway (hb : s.Bound expected r) (hclean : s.Clean)
    (halone : s.Alone (receiptKeyDigest expected.record.key)) (hlinks : s'.links = s.links)
    (hwrote : s.tasks.Wrote Proceeds s'.tasks (r.recovered reason digest now)) :
    s'.Halfway expected (r.recovered reason digest now) (closedStatus reason) digest now := by
  have hadvances : Advances r (r.recovered reason digest now) := r.advances_recovered now hb.active
  have hholds : s'.tasks.Holds r.taskId (r.recovered reason digest now) :=
    ⟨hwrote.lookup_eq, rfl, hwrote.publishable⟩
  have hsame := hb.matches_record.1
  have hid : (TaskLifecycleLinkRecord.taskBound expected).header.key.reservedTaskId
      = (r.recovered reason digest now).taskId := hsame.key_task_eq
  refine ⟨hlinks ▸ hb.durable, ⟨?_, ?_, ?_⟩, ?_, ?_, hholds, hsame.advances hadvances, closedTerminal_recovered⟩
  · intro taskId r' hr'
    by_cases heq : taskId = r.taskId
    · subst heq
      cases some.inj (hr'.symm.trans hholds.lookup_eq)
      exact hholds
    · have hr : s.tasks.records.lookup taskId = some r' := by
        have hne : taskId ≠ (r.recovered reason digest now).taskId := heq
        rw [hwrote.records_eq, lookup_insert_of_ne _ hne] at hr'
        exact hr'
      have hheld := hclean.readable taskId r' hr
      exact ⟨hr', hheld.id_eq, hheld.publishable⟩
  · have hquarantined := hwrote.quarantined_eq.resolve_right fun h => h.elim proceeds_fail proceeds_crash
    rw [hquarantined, hclean.tasks_clean]
  · rw [hlinks, hclean.links_clean]
  · exact halone.replaced hb.durable.sound hb.link_eq hid hwrote.records_eq (congrArg memory hlinks)
  · rw [link, hlinks]
    exact hb.link_eq

/-- After the first write the record matches its link exactly where it did not run ahead before. -/
theorem Stores.Bound.matches_recovered (hb : s.Bound expected r) (hlt : r.version + 1 < wordBound) :
    taskBoundMatchesRecord expected (r.recovered reason digest now)
      ↔ expected.taskRecordVersion = r.version := by
  have hadvances : Advances r (r.recovered reason digest now) := r.advances_recovered now hb.active
  have hversion : (r.recovered reason digest now).version = r.version + 1 := rfl
  have hbehind : expected.taskRecordVersion ≤ r.version := by
    rcases hb.matches_record.2 with hexact | hone
    · exact Nat.le_of_eq hexact.1
    · have hsucc := (checkedAdd_eq_some.mp hone.1).2
      omega
  constructor
  · rintro ⟨-, hexact | hone⟩
    · have hahead := hexact.1
      omega
    · have hsucc := (checkedAdd_eq_some.mp hone.1).2
      omega
  · intro heq
    have hupdated : expected.task.updatedAtEpochMs = r.updatedAtEpochMs := by
      rcases hb.matches_record.2 with hexact | hone
      · exact hexact.2.2
      · have hsucc := (checkedAdd_eq_some.mp hone.1).2
        omega
    refine ⟨hb.matches_record.1.advances hadvances, .inr ⟨?_, expected.version_eq, ?_, ?_⟩⟩
    · rw [heq]
      exact checkedAdd_eq_some.mpr ⟨hlt, rfl⟩
    · exact Nat.le_trans (Nat.le_of_eq hupdated) hadvances.updated_le
    · exact .inr (.inr isTerminal_recovered)

end Between

/-! ## A Task that was started -/

section Sample

attribute [local instance] plainCodec

def plainTaskKey : ReceiptKey := ⟨11, 5, 0, .view, 0, 0⟩

def plainProjection : ReceiptTaskProjection :=
  ⟨⟨5, 11, 100, 200, 60000, 1000, 2⟩, by decide, by decide, by decide, by decide⟩

def plainWorking : V5StoredInvocationRecord :=
  ⟨5, 11, 11, .view, 0, 0, 100, 200, 60000, 1000, 2, false, .working⟩

/-- The link of the Task, bound when it was begun. -/
def plainBind : LinkM TaskBoundReceipt := do
  let held ← reserveTaskLink plainTaskKey ⟨11, 5, 11, 0⟩
  materializeTaskBound held plainProjection 2 100 .begun

/-- The Task created at 100 and started at 200, with its link. -/
def plainStores : Stores :=
  ⟨plainTaskStarted.store, (plainBind .fresh []).state⟩

theorem plainBind_ends : Ends Proceeds plainBind .fresh
    (fun _ s' => s'.OnDisk s'.memory) (fun _ _ => True) fun _ => False := by
  have hfresh : fresh.OnDisk fresh.memory := .absent rfl
  refine .bind (.mono ((reserveTaskLink_mutates hfresh.sound).proceeds hfresh) (fun _ _ h => h.1)
    (fun _ _ _ => trivial) fun _ h => h) ?_
  intro held t ht
  exact .mono ((materializeTaskBound_mutates ht.sound).proceeds ht) (fun _ _ h => h.1)
    (fun _ _ _ => trivial) fun _ h => h

def plainExpected : TaskBoundReceipt :=
  ⟨⟨plainTaskKey, ⟨11, 5, 11, 0⟩, 2, 2, 834, Nat.two_pos, Nat.two_pos, by decide, by decide, rfl, rfl, rfl⟩,
    plainProjection, 2, 100, .begun, rfl, rfl, rfl, by decide⟩

theorem plainStores_bound :
    plainStores.Bound plainExpected plainWorking ∧ plainStores.Clean ∧ plainStores.Alone 11 := by
  have hlink : plainStores.link 11 = some (.link (.taskBound plainExpected)) := by decide +kernel
  have hrecord : plainStores.tasks.records.lookup 5 = some plainWorking := by decide +kernel
  have hpublishable : Publishable plainWorking := ⟨by decide +kernel, by decide +kernel⟩
  have hdurable : plainStores.links.OnDisk plainStores.links.memory := by
    have hrun := (plainBind_ends [] nofun).1
    exact hrun
  -- the two stores hold this Task and no other
  have honly : plainStores.tasks.records = (∅ : Table TaskId V5StoredInvocationRecord).insert 5 plainWorking := by
    decide +kernel
  have hreadable : plainStores.Readable := by
    intro taskId r hr
    rcases lookup_insert_cases (honly ▸ hr) with ⟨rfl, rfl⟩ | ⟨-, hr⟩
    · exact ⟨hrecord, rfl, hpublishable⟩
    · cases hr
  have hentries : plainStores.links.memory.entries
      = (∅ : Table ReceiptKeyDigest LinkEntry).insert 11 (.link (.taskBound plainExpected)) := by
    decide +kernel
  refine ⟨⟨hdurable, hlink, ⟨hrecord, rfl, hpublishable⟩, rfl, by decide +kernel⟩,
    ⟨hreadable, by decide +kernel, by decide +kernel⟩, ⟨fun taskId r hr => ?_, fun d link hne hlink' => ?_⟩⟩
  · rcases lookup_insert_cases (honly ▸ hr) with ⟨heq, -⟩ | ⟨-, hr⟩
    · exact ⟨11, _, hlink, heq.symm⟩
    · cases hr
  · rw [Stores.link, hentries, lookup_insert_of_ne _ hne] at hlink'
    cases hlink'

/-- Recovery at a reading between creation and start. -/
def plainEarlyRecovery : Run Stores V5TaskProjectionFailure TaskTerminalBoundReceipt :=
  terminalizeRecoveredBound plainExpected plainWorking .outcomeUncertain 150 plainStores []

end Sample

end Unica.Projection
