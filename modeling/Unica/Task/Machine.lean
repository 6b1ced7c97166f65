import Unica.Task.Opening

/-!
# The life of a Task record

A run of a Task store is any sequence of its operations, by any number of threads: an
operation holds the writer lock, so it is one step of the run, with any faults, and a
process that dies reopens the store. A watcher keeps the successive durable records of
one Task since it was created. They form a chain in which a record only advances, and a
terminal record ends the chain.
-/

namespace Unica.Task

open Lib Receipt Prog Finmap Option RecoveryTerminalReason V5TaskIdentity

/-- A call on the store; the clock it reads is not its argument. -/
inductive TaskCall where
  | create (new : NewV5InvocationRecord)
  | get (taskId : TaskId)
  | requestCancel (identity : V5TaskIdentity) (expectedVersion : Nat)
  | startWorking (identity : V5TaskIdentity) (expectedVersion : Nat)
  | publishTerminal (identity : V5TaskIdentity) (expectedVersion : Nat) (publication : V5TerminalPublication)
  | publishStagedTerminal (expected : V5StoredInvocationRecord) (publication : V5TerminalPublication)
  | terminalizeRecovered (identity : V5TaskIdentity) (expectedVersion : Nat) (reason : RecoveryTerminalReason)
  | deleteTerminal (retirement : V5TaskRetirement) (observedAtEpochMs : EpochMs)
  | reopen

inductive TaskReply where
  | record (record : V5StoredInvocationRecord)
  | start (outcome : V5StartWorkingOutcome)
  | deletion (outcome : V5DeleteTerminalOutcome)
  | entries (entries : List V5TaskRecoveryEntry)
  deriving DecidableEq

def answering {α : Type} (reply : α → TaskReply) (m : TaskM α) : TaskM TaskReply := do
  let a ← m
  pure (reply a)

def TaskCall.run [TaskCodec] (now : EpochMs) : TaskCall → TaskM TaskReply
  | create new => answering .record (createExact new now)
  | get taskId => answering .record (readRecord taskId)
  | requestCancel identity version => answering .record (requestCancelExact identity version now)
  | startWorking identity version => answering .start (startWorkingIfNotCancelRequested identity version now)
  | publishTerminal identity version publication =>
      answering .record (publishTerminalExact identity version publication)
  | publishStagedTerminal expected publication =>
      answering .record (publishStagedTerminalAgainstExactProvisional expected publication)
  | terminalizeRecovered identity version reason =>
      answering .record (terminalizeRecoveredExact identity version reason now)
  | deleteTerminal retirement observed => answering .deletion (deleteTerminalIfExpired retirement observed)
  | reopen => answering .entries openInspectOnly

/-- Queued to Working to a terminal, or Queued to a terminal. -/
inductive V5StoredTask.Moves : V5StoredTask → V5StoredTask → Prop where
  | stay (task : V5StoredTask) : Moves task task
  | start : Moves .queued .working
  | finish (task task' : V5StoredTask) (hactive : task.isTerminal = false)
      (hterminal : task'.isTerminal = true) : Moves task task'

/-- One durable change of a record. -/
structure Advances (r r' : V5StoredInvocationRecord) : Prop where
  active : r.task.isTerminal = false
  identity_eq : r'.identity = r.identity
  tool_eq : r'.tool = r.tool
  arguments_eq : r'.normalizedArgumentsHash = r.normalizedArgumentsHash
  workspace_eq : r'.workspaceIdentityHash = r.workspaceIdentityHash
  created_eq : r'.createdAtEpochMs = r.createdAtEpochMs
  ttl_eq : r'.ttlMs = r.ttlMs
  poll_eq : r'.pollIntervalMs = r.pollIntervalMs
  version_eq : r'.version = r.version + 1
  updated_le : r.updatedAtEpochMs ≤ r'.updatedAtEpochMs
  moves : r.task.Moves r'.task
  cancel_kept : r.cancelRequested = true → r'.cancelRequested = true

/-- What one step of a run does to the record of a Task. -/
inductive Evolves : Option V5StoredInvocationRecord → Option V5StoredInvocationRecord → Prop where
  | keep (o : Option V5StoredInvocationRecord) : Evolves o o
  | create (r : V5StoredInvocationRecord) (hversion : r.version = 1) (hactive : r.task.isTerminal = false) :
      Evolves none (some r)
  | advance (r r' : V5StoredInvocationRecord) (h : Advances r r') : Evolves (some r) (some r')
  | delete (r : V5StoredInvocationRecord) (hterminal : r.task.isTerminal = true) : Evolves (some r) none

open Evolves

/-! ## One step -/

namespace V5StoredInvocationRecord

variable {r : V5StoredInvocationRecord}

theorem advances_withCancel (now : EpochMs) (hactive : r.task.isTerminal = false) :
    Advances r (r.withCancel now) :=
  ⟨hactive, rfl, rfl, rfl, rfl, rfl, rfl, rfl, rfl, Nat.le_max_left _ _, .stay _, fun _ => rfl⟩

theorem advances_atWork (now : EpochMs) (hqueued : r.task = .queued) : Advances r (r.atWork now) := by
  refine ⟨by rw [hqueued]; rfl, rfl, rfl, rfl, rfl, rfl, rfl, rfl, rfl, Nat.le_max_left _ _, ?_, id⟩
  rw [hqueued]
  exact .start

theorem advances_finished {p : V5TerminalPublication} (hactive : r.task.isTerminal = false)
    (hepoch : r.updatedAtEpochMs ≤ p.terminalEpochMs) : Advances r (r.finished p) :=
  ⟨hactive, rfl, rfl, rfl, rfl, rfl, rfl, rfl, rfl, hepoch,
    .finish _ _ hactive p.isTerminal_intoStoredTask, id⟩

theorem advances_recovered {reason : RecoveryTerminalReason} {digest : TerminalDigest} (now : EpochMs)
    (hactive : r.task.isTerminal = false) : Advances r (r.recovered reason digest now) :=
  ⟨hactive, rfl, rfl, rfl, rfl, rfl, rfl, rfl, rfl, Nat.le_max_left _ _,
    .finish _ _ hactive (by cases reason <;> rfl), id⟩

end V5StoredInvocationRecord

section Steps

variable [TaskCodec] {V : Verdict → Prop} {s s' : TaskStore} {id : TaskId}

omit [TaskCodec] in
theorem Evolves.of_records_eq (h : s'.records = s.records) :
    Evolves (s.records.lookup id) (s'.records.lookup id) := by
  rw [h]
  exact .keep _

/-- Writing the successor of a held record advances that Task and no other. -/
theorem Evolves.of_wrote {r r' : V5StoredInvocationRecord} (hr : s.Holds r.taskId r)
    (hwrote : s.Wrote V s' r') (h : Advances r r') :
    Evolves (s.records.lookup id) (s'.records.lookup id) := by
  have hid : r'.taskId = r.taskId := congrArg taskId h.identity_eq
  rw [hwrote.records_eq, hid]
  by_cases heq : id = r.taskId
  · subst heq
    rw [lookup_insert, hr.lookup_eq]
    exact .advance r r' h
  · rw [lookup_insert_of_ne _ heq]
    exact .keep _

omit [TaskCodec] in
theorem Evolves.of_updates {α : Type} {m : TaskM α} {keep : α → Prop} {C : Prop}
    {write : α → TaskStore → Prop} (h : (discipline V).Updates V m s keep C write)
    (hw : ∀ a s', write a s' → Evolves (s.records.lookup id) (s'.records.lookup id))
    {reply : α → TaskReply} :
    Sat V (answering reply m) s fun _ s' => Evolves (s.records.lookup id) (s'.records.lookup id) := by
  have hm : Sat V m s fun _ s' => Evolves (s.records.lookup id) (s'.records.lookup id) := by
    refine .mono h fun out s' => ?_
    rintro (⟨hsame, -⟩ | ⟨a, ha, -⟩)
    · exact .of_records_eq hsame.1
    · exact hw a s' ha
  exact .bind hm (fun a s' h => .pure h) (fun _ _ h => h) fun _ h => h

/-- A cancel is asked for only at a version at which the record was not terminal. -/
def TaskCall.CancelsActive (s : TaskStore) (id : TaskId) : TaskCall → Prop
  | .requestCancel identity version => identity.taskId = id → ∀ r, s.records.lookup id = some r →
      r.version = version → r.task.isTerminal = false
  | _ => True

/-- **One step.** Whatever faults a call meets, the record of a Task is kept, created, advanced by
one change, or deleted once terminal. -/
theorem TaskCall.run_evolves (call : TaskCall) (now : EpochMs) (hcancel : call.CancelsActive s id) :
    Sat V (call.run now) s fun _ s' => Evolves (s.records.lookup id) (s'.records.lookup id) := by
  cases call with
  | create new =>
    refine of_updates createExact_updates ?_
    rintro a s' ⟨-, habsent, rfl, hwrote⟩
    rw [hwrote.records_eq]
    by_cases heq : id = (new.intoStored now).taskId
    · subst heq
      rw [lookup_insert, show s.records.lookup (new.intoStored now).taskId = none from habsent]
      refine .create _ rfl ?_
      simp only [NewV5InvocationRecord.intoStored]
      split <;> rfl
    · rw [lookup_insert_of_ne _ heq]
      exact .keep _
  | get taskId =>
    have hread : Sat V (readRecord taskId) s fun _ s' => s'.records = s.records :=
      Ends.sat get_looks (fun _ _ h => h.1.1) (fun _ _ h => h.1.1) fun _ h => h.1.1
    exact Sat.bind hread (fun _ _ h => .pure (.of_records_eq h)) (fun _ _ h => .of_records_eq h)
      fun _ h => .of_records_eq h
  | requestCancel identity version =>
    refine of_updates requestCancelExact_updates ?_
    rintro a s' ⟨r, hr, rfl, hversion, hopen, rfl, hwrote⟩
    by_cases heq : r.taskId = id
    · have hactive := hcancel heq r (heq ▸ hr.lookup_eq) hversion
      exact .of_wrote hr hwrote (r.advances_withCancel now hactive)
    · have hne : id ≠ (r.withCancel now).taskId := Ne.symm heq
      rw [hwrote.records_eq, lookup_insert_of_ne _ hne]
      exact .keep _
  | startWorking identity version =>
    refine of_updates startWorking_updates ?_
    rintro a s' ⟨r, hr, rfl, -, -, hqueued, -, hwrote⟩
    exact .of_wrote hr hwrote (r.advances_atWork now hqueued)
  | publishTerminal identity version publication =>
    refine of_updates publishTerminalExact_updates ?_
    rintro a s' ⟨r, hr, rfl, -, -, hactive, -, hepoch, rfl, hwrote⟩
    exact .of_wrote hr hwrote (r.advances_finished hactive hepoch)
  | publishStagedTerminal expected publication =>
    refine of_updates publishStagedTerminal_updates ?_
    rintro a s' ⟨hr, -, hactive, hepoch, rfl, hwrote⟩
    exact .of_wrote hr hwrote (expected.advances_finished hactive hepoch)
  | terminalizeRecovered identity version reason =>
    refine of_updates terminalizeRecoveredExact_updates ?_
    rintro a s' ⟨r, digest, hr, rfl, -, -, hactive, -, -, rfl, hwrote⟩
    exact .of_wrote hr hwrote (r.advances_recovered now hactive)
  | deleteTerminal retirement observed =>
    refine of_updates deleteTerminalIfExpired_updates ?_
    rintro a s' ⟨-, ⟨r, hr, hexpires⟩, hremoved⟩
    rw [hremoved.records_eq]
    by_cases heq : id = retirement.identity.taskId
    · subst heq
      rw [lookup_erase, hr.lookup_eq]
      exact .delete r hexpires.terminal
    · rw [lookup_erase_ne heq]
      exact .keep _
  | reopen =>
    have hopen : Sat V openInspectOnly s fun _ s' => s'.records = s.records :=
      Ends.sat openInspectOnly_ends (fun _ _ h => h.records_eq) (fun _ _ h => h.1.1) fun _ h => h.1.1
    exact Sat.bind hopen (fun _ _ h => .pure (.of_records_eq h)) (fun _ _ h => .of_records_eq h)
      fun _ h => .of_records_eq h

end Steps

/-! ## Whole runs -/

/-- A store and the successive durable records of one Task since it was created, newest first. -/
structure Watched where
  store : TaskStore
  history : List V5StoredInvocationRecord

namespace Watched

/-- The history once the store has moved on. A Task that was deleted has none. -/
def record (id : TaskId) (w : Watched) (s : TaskStore) : Watched where
  store := s
  history := match s.records.lookup id with
    | none => []
    | some r => if w.history.head? = some r then w.history else r :: w.history

/-- A run starts from any store. -/
def start (id : TaskId) (s : TaskStore) : Watched := record id ⟨s, []⟩ s

/-- A thread that asks for a cancel has read a record that was not terminal at the version it
names. The records it can have read are the durable ones of the Task. -/
def Reads (w : Watched) (id : TaskId) : TaskCall → Prop
  | .requestCancel identity version => identity.taskId = id →
      ∃ r ∈ w.history, r.version = version ∧ r.task.isTerminal = false
  | _ => True

/-- One call by some thread at some clock reading, with any faults. -/
def Step [TaskCodec] (id : TaskId) (w w' : Watched) : Prop :=
  ∃ (call : TaskCall) (now : EpochMs) (o : List Verdict),
    w.Reads id call ∧ w' = w.record id (call.run now w.store o).state

abbrev Runs [TaskCodec] (id : TaskId) : Watched → Watched → Prop := Relation.ReflTransGen (Step id)

/-- The history is a chain of changes and its newest record is the one on disk. -/
structure Recorded (id : TaskId) (w : Watched) : Prop where
  head_eq : w.history.head? = w.store.records.lookup id
  chain : w.history.IsChain fun newer older => Advances older newer

variable {id : TaskId} {w w' : Watched}

theorem recorded_start (s : TaskStore) : Recorded id (start id s) := by
  unfold start record
  cases hlookup : s.records.lookup id with
  | none => exact ⟨hlookup.symm, .nil⟩
  | some r => exact ⟨hlookup.symm, .singleton _⟩

/-- Every older record of the history has a smaller version. -/
theorem Recorded.version_lt (h : Recorded id w) {r : V5StoredInvocationRecord}
    {rest : List V5StoredInvocationRecord} (hhistory : w.history = r :: rest) :
    ∀ older ∈ rest, older.version < r.version := by
  have hversions : w.history.IsChain fun newer older : V5StoredInvocationRecord =>
      older.version < newer.version :=
    h.chain.imp fun newer older (hadv : Advances older newer) => by
      rw [hadv.version_eq]
      exact Nat.lt_succ_self _
  rw [hhistory, List.isChain_iff_pairwise, List.pairwise_cons] at hversions
  exact hversions.1

/-- The version read is the current one only while the record read is the current one. -/
theorem Recorded.cancelsActive (h : Recorded id w) {call : TaskCall} (hreads : w.Reads id call) :
    call.CancelsActive w.store id := by
  cases call with
  | requestCancel identity version =>
    intro hid r hlookup hversion
    obtain ⟨older, hmem, hold, hactive⟩ := hreads hid
    obtain ⟨rest, hhistory⟩ := List.head?_eq_some_iff.mp (h.head_eq.trans hlookup)
    rw [hhistory] at hmem
    rcases List.mem_cons.mp hmem with rfl | hrest
    · exact hactive
    · have := h.version_lt hhistory older hrest
      omega
  | _ => trivial

/-- A step of the record extends the history by it. -/
theorem Recorded.record (h : Recorded id w) {s : TaskStore}
    (hevolves : Evolves (w.store.records.lookup id) (s.records.lookup id)) :
    Recorded id (w.record id s) := by
  have hhead := h.head_eq
  unfold Watched.record
  generalize hafter : s.records.lookup id = after at hevolves
  generalize w.store.records.lookup id = before at hevolves hhead
  cases hevolves with
  | keep =>
    cases after with
    | none => exact ⟨hafter.symm, .nil⟩
    | some r =>
      refine ⟨?_, ?_⟩
      · simp only [if_pos hhead]
        exact hhead.trans hafter.symm
      · simp only [if_pos hhead]
        exact h.chain
  | create r hversion hactive =>
    have hempty : w.history = [] := List.head?_eq_none_iff.mp hhead
    refine ⟨?_, ?_⟩
    · simp only [hempty, List.head?_nil, reduceCtorEq, if_false, List.head?_cons]
      exact hafter.symm
    · simp only [hempty, List.head?_nil, reduceCtorEq, if_false]
      exact .singleton _
  | advance r r' hadv =>
    obtain ⟨rest, hhistory⟩ := List.head?_eq_some_iff.mp hhead
    have hne : w.history.head? ≠ some r' := by
      rw [hhead]
      intro heq
      have := hadv.version_eq
      cases some.inj heq
      omega
    refine ⟨?_, ?_⟩
    · simp only [if_neg hne, List.head?_cons]
      exact hafter.symm
    · simp only [if_neg hne]
      rw [hhistory]
      exact .cons_cons hadv (hhistory ▸ h.chain)
  | delete r hterminal => exact ⟨hafter.symm, .nil⟩

variable [TaskCodec]

theorem Recorded.evolves (h : Recorded id w) (hstep : Step id w w') :
    Evolves (w.store.records.lookup id) (w'.store.records.lookup id) := by
  obtain ⟨call, now, o, hreads, rfl⟩ := hstep
  exact (TaskCall.run_evolves call now (h.cancelsActive hreads) o fun _ _ => trivial).1

theorem Recorded.step (h : Recorded id w) (hstep : Step id w w') : Recorded id w' := by
  have hevolves := h.evolves hstep
  obtain ⟨call, now, o, hreads, rfl⟩ := hstep
  exact h.record hevolves

theorem Recorded.runs (h : Recorded id w) (hrun : Runs id w w') : Recorded id w' := by
  induction hrun with
  | refl => exact h
  | tail _ hstep ih => exact ih.step hstep

end Watched

/-! ## Repeating a publication -/

/-- The Task whose record the call may change. -/
def TaskCall.task? : TaskCall → Option TaskId
  | .create new => some new.identity.taskId
  | .requestCancel identity _ => some identity.taskId
  | .startWorking identity _ => some identity.taskId
  | .publishTerminal identity _ _ => some identity.taskId
  | .publishStagedTerminal expected _ => some expected.taskId
  | .terminalizeRecovered identity _ _ => some identity.taskId
  | .deleteTerminal retirement _ => some retirement.identity.taskId
  | .get _ | .reopen => none

/-- Creating a Task and giving it a terminal; the callers repeat these with the same arguments. -/
def TaskCall.isPublication : TaskCall → Bool
  | .create _ | .publishTerminal _ _ _ | .publishStagedTerminal _ _ | .terminalizeRecovered _ _ _ => true
  | _ => false

/-- The store still has the Task as it was. -/
structure TaskStore.Agrees (t s : TaskStore) (id : TaskId) : Prop where
  lookup_eq : t.records.lookup id = s.records.lookup id
  known_iff : id ∈ t.known ↔ id ∈ s.known

/-- As long as the Task's record is the one `s` has, repeating the call changes no record, and a
publication returns it. -/
structure TaskCall.Settled [TaskCodec] (call : TaskCall) (id : TaskId) (s : TaskStore) : Prop where
  unchanged : ∀ t, t.Agrees s id → ∀ now o, (call.run now t o).state.records = t.records
  returns : call.isPublication = true → ∃ r, s.records.lookup id = some r ∧ ∀ t, t.Agrees s id →
    ∀ now o, (∀ v ∈ o, Proceeds v) → (call.run now t o).outcome = .ok (.record r)

section Retry

variable {s t : TaskStore} {id : TaskId} {r : V5StoredInvocationRecord} {α : Type} {m : TaskM α}
  {C : Prop} {keep : α → Prop} {reply : α → TaskReply} {V : Verdict → Prop} {o : List Verdict}
  {operation : V5CommitOperation}

/-- An uncertain commit is one whose change is in place. -/
theorem answering_uncertain {write : α → TaskStore → Prop}
    (h : (discipline V).Updates V m s keep C write) (ho : ∀ v ∈ o, V v) {taskId : TaskId}
    (hout : (answering reply m s o).outcome = .error (.commitUncertain taskId operation)) :
    ∃ a, write a (answering reply m s o).state := by
  have hm : Sat V m s fun out s' => ∀ taskId operation,
      out = .error (.commitUncertain taskId operation) → ∃ a, write a s' := by
    refine .mono h fun out s' => ?_
    rintro (⟨-, hkeep⟩ | ⟨a, ha, -⟩) taskId operation rfl
    · exact absurd rfl (hkeep.1 taskId operation)
    · exact ⟨a, ha⟩
  have hanswer : Sat V (answering reply m) s fun out s' => ∀ taskId operation,
      out = .error (.commitUncertain taskId operation) → ∃ a, write a s' :=
    .bind hm (fun _ _ _ => .pure nofun) (fun e s' h taskId operation heq =>
      h taskId operation (by cases heq; rfl)) fun _ _ => nofun
  exact (hanswer o ho).1 taskId operation hout

/-- An operation with nothing to write. -/
theorem answering_unchanged {write : α → TaskStore → Prop}
    (h : (discipline fun _ => True).Updates (fun _ => True) m t keep C write)
    (hwrite : ∀ a t', ¬ write a t') (o : List Verdict) :
    (answering reply m t o).state.records = t.records := by
  have hm : Sat (fun _ => True) m t fun _ t' => t'.records = t.records := by
    refine .mono h fun out t' => ?_
    rintro (⟨hsame, -⟩ | ⟨a, ha, -⟩)
    · exact hsame.1
    · exact (hwrite a t' ha).elim
  have hanswer : Sat (fun _ => True) (answering reply m) t fun _ t' => t'.records = t.records :=
    .bind hm (fun _ _ h => .pure h) (fun _ _ h => h) fun _ h => h
  exact (hanswer o fun _ _ => trivial).1

/-- An operation with nothing to write and one value to return. -/
theorem answering_returns {write : α → TaskStore → Prop} {a : α}
    (h : (discipline Proceeds).Updates Proceeds m t keep C write) (hkeep : ∀ b, keep b → b = a)
    (hwrite : ∀ b t', ¬ write b t') (hc : ¬ C) (ho : ∀ v ∈ o, Proceeds v) :
    (answering reply m t o).outcome = .ok (reply a) := by
  have hm : Ends Proceeds m t (fun b _ => b = a) (fun _ _ => False) fun _ => False :=
    .mono (h.succeeds hc)
      (fun b t' hb => hb.elim (fun hs => hkeep b hs.2) fun hw => (hwrite b t' hw).elim)
      (fun _ _ h => h) fun _ h => h
  have hanswer : Ends Proceeds (answering reply m) t (fun b _ => b = reply a) (fun _ _ => False)
      fun _ => False :=
    .bind hm fun b t' hb => .pure (congrArg reply hb)
  have hout := (hanswer o ho).1
  cases hcase : (answering reply m t o).outcome with
  | ok b =>
    rw [hcase] at hout
    exact congrArg Outcome.ok hout
  | error e | crashed =>
    rw [hcase] at hout
    exact hout.elim

variable [TaskCodec]

namespace TaskStore.Wrote

theorem lookup_eq (h : s.Wrote V t r) : t.records.lookup r.taskId = some r := by
  rw [h.records_eq, lookup_insert]

theorem mem_known (h : s.Wrote V t r) : r.taskId ∈ t.known := by
  rw [h.known_eq]
  exact Finset.mem_insert_self _ _

/-- A store that agrees with one a record was written to holds that record. -/
theorem holds {u : TaskStore} (h : s.Wrote V t r) (hagrees : u.Agrees t r.taskId) : u.Holds r.taskId r :=
  ⟨hagrees.lookup_eq.trans h.lookup_eq, rfl, h.publishable⟩

/-- The version a record was written over is not held any more. -/
theorem version_ne {u : TaskStore} {r' : V5StoredInvocationRecord} {n : Nat}
    (h : s.Wrote V t r) (hagrees : u.Agrees t r.taskId) (hr' : u.Holds r.taskId r')
    (hnext : r.version = n + 1) : r'.version ≠ n := by
  rw [(h.holds hagrees).unique hr', hnext]
  exact n.succ_ne_self

end TaskStore.Wrote

omit [TaskCodec] in
theorem NewV5InvocationRecord.matchesRecord_intoStored (new : NewV5InvocationRecord) (now : EpochMs) :
    new.matchesRecord (new.intoStored now) = true := by
  have hid : new.identity.matchesRecord (new.intoStored now) = true :=
    matchesRecord_iff.mpr rfl
  rw [matchesRecord, hid]
  obtain ⟨identity, tool, arguments, workspace, poll, ttl, initial, begun⟩ := new
  cases initial <;> cases begun <;> simp [intoStored]

/-- **One repetition.** A call that reported an uncertain commit is settled where it ended. -/
theorem TaskCall.settled_of_uncertain (call : TaskCall) (hid : call.task? = some id) {now : EpochMs}
    {taskId : TaskId} (hout : (call.run now s o).outcome = .error (.commitUncertain taskId operation)) :
    call.Settled id (call.run now s o).state := by
  have htrue : ∀ v ∈ o, (fun _ : Verdict => True) v := fun _ _ => trivial
  cases call with
  | create new =>
    cases some.inj hid
    obtain ⟨a, -, -, rfl, hwrote⟩ := answering_uncertain createExact_updates htrue hout
    have hknown : ∀ t : TaskStore, t.Agrees _ new.identity.taskId → new.identity.taskId ∈ t.known :=
      fun t ht => ht.known_iff.mpr hwrote.mem_known
    refine ⟨fun t ht now' => answering_unchanged createExact_updates fun _ _ hw => hw.1 (hknown t ht),
      fun _ => ⟨_, hwrote.lookup_eq, fun t ht now' o' ho' => ?_⟩⟩
    have hr := hwrote.holds ht
    refine answering_returns createExact_updates (fun b hb => hr.unique hb.2.1)
      (fun _ _ hw => hw.1 (hknown t ht)) ?_ ho'
    rw [if_pos (hknown t ht)]
    exact fun hc => hc _ hr (new.matchesRecord_intoStored now)
  | get taskId => cases hid
  | requestCancel identity version =>
    cases some.inj hid
    obtain ⟨a, r, -, rfl, rfl, -, rfl, hwrote⟩ := answering_uncertain requestCancelExact_updates htrue hout
    exact ⟨fun t ht now' => answering_unchanged requestCancelExact_updates
      fun _ _ ⟨r', hr', _, hversion, _⟩ => hwrote.version_ne ht hr' rfl hversion, nofun⟩
  | startWorking identity version =>
    cases some.inj hid
    obtain ⟨a, r, -, rfl, rfl, -, -, -, hwrote⟩ := answering_uncertain startWorking_updates htrue hout
    exact ⟨fun t ht now' => answering_unchanged startWorking_updates
      fun _ _ ⟨r', hr', _, hversion, _⟩ => hwrote.version_ne ht hr' rfl hversion, nofun⟩
  | publishTerminal identity version publication =>
    cases some.inj hid
    obtain ⟨a, r, -, rfl, rfl, hlt, -, -, -, rfl, hwrote⟩ :=
      answering_uncertain publishTerminalExact_updates htrue hout
    have hterminal : (r.finished publication).task.isTerminal = true := publication.isTerminal_intoStoredTask
    refine ⟨fun t ht now' => answering_unchanged publishTerminalExact_updates
      fun _ _ ⟨r', hr', _, hversion, _⟩ => hwrote.version_ne ht hr' rfl hversion,
      fun _ => ⟨_, hwrote.lookup_eq, fun t ht now' o' ho' => ?_⟩⟩
    have hheld := hwrote.holds ht
    refine answering_returns publishTerminalExact_updates (fun b hb => hheld.unique hb.1)
      (fun _ _ ⟨r', hr', _, hversion, _⟩ => hwrote.version_ne ht hr' rfl hversion) ?_ ho'
    exact fun hc => hc _ hheld ⟨rfl, fun _ => ⟨hlt, rfl, rfl⟩, fun hactive =>
      absurd hactive (by rw [hterminal]; decide)⟩
  | publishStagedTerminal expected publication =>
    cases some.inj hid
    obtain ⟨a, -, hlt, hactive, hepoch, rfl, hwrote⟩ :=
      answering_uncertain publishStagedTerminal_updates htrue hout
    refine ⟨fun t ht now' => answering_unchanged publishStagedTerminal_updates
      fun _ _ hw => hwrote.version_ne ht hw.1 rfl rfl,
      fun _ => ⟨_, hwrote.lookup_eq, fun t ht now' o' ho' => ?_⟩⟩
    refine answering_returns publishStagedTerminal_updates (fun b hb => hb.2) (fun _ _ hw => ?_)
      (fun hc => ?_) ho'
    · exact hwrote.version_ne ht hw.1 rfl rfl
    · exact hc _ (hwrote.holds ht) ⟨hactive, hepoch, hlt, .inl rfl, hwrote.publishable⟩
  | terminalizeRecovered identity version reason =>
    cases some.inj hid
    obtain ⟨a, r, digest, -, rfl, rfl, hlt, -, -, -, rfl, hwrote⟩ :=
      answering_uncertain terminalizeRecoveredExact_updates htrue hout
    have hterminal : (r.recovered reason digest now).task.isTerminal = true := by cases reason <;> rfl
    have hmatches : reason.matchesTask (r.recovered reason digest now).task = true := by
      cases reason <;> simp [matchesTask, storedTask,
        V5StoredInvocationRecord.recovered]
    refine ⟨fun t ht now' => answering_unchanged terminalizeRecoveredExact_updates
      fun _ _ ⟨r', _, hr', _, hversion, _⟩ => hwrote.version_ne ht hr' rfl hversion,
      fun _ => ⟨_, hwrote.lookup_eq, fun t ht now' o' ho' => ?_⟩⟩
    have hheld := hwrote.holds ht
    refine answering_returns terminalizeRecoveredExact_updates (fun b hb => hheld.unique hb.1)
      (fun _ _ ⟨r', _, hr', _, hversion, _⟩ => hwrote.version_ne ht hr' rfl hversion) ?_ ho'
    exact fun hc => hc _ hheld ⟨rfl, fun _ => ⟨hlt, rfl, hmatches⟩,
      fun hactive => absurd hactive (by rw [hterminal]; decide)⟩
  | deleteTerminal retirement observed =>
    cases some.inj hid
    obtain ⟨a, -, -, hremoved⟩ := answering_uncertain deleteTerminalIfExpired_updates htrue hout
    refine ⟨fun t ht now' => answering_unchanged deleteTerminalIfExpired_updates ?_, nofun⟩
    rintro _ _ ⟨-, ⟨r, hr, -⟩, -⟩
    have habsent : t.records.lookup retirement.identity.taskId = none := by
      refine ht.lookup_eq.trans ?_
      exact (congrArg (lookup _) hremoved.records_eq).trans (lookup_erase _ _)
    rw [hr.lookup_eq] at habsent
    cases habsent
  | reopen => cases hid

end Retry

/-! ## The state machine -/

/-- A Task of invocation 11 under id 5. -/
def plainTask : NewV5InvocationRecord where
  identity := ⟨5, 11, 11⟩
  tool := .view
  normalizedArgumentsHash := 0
  workspaceIdentityHash := 0
  pollIntervalMs := 1000
  ttlMs := 60000
  initialEpochMs := none
  recoveredBegunCancelRequested := none

/-- The Task is created and started. -/
def plainTaskStarted : Watched :=
  letI := plainCodec
  let created := (Watched.start 5 .empty).record 5 ((TaskCall.create plainTask).run 100 .empty []).state
  created.record 5 ((TaskCall.startWorking plainTask.identity 1).run 200 created.store []).state

/-- Publishing its failure when the directory cannot be synchronized. -/
def plainTaskFails : TaskCall := .publishTerminal plainTask.identity 2 (.failed 300 7 .interrupted)

def lateFailure : List Verdict := List.replicate 25 .proceed ++ [.fail]

end Unica.Task
