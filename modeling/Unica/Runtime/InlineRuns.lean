import Unica.Runtime.Inline

/-!
# Every run of an inline attempt

The report of the worker is in one place at a time: in the slot, in the hands of one thread, or
delivered. `Phase` names the places, with all that the threads and the slot look like then.
-/

namespace Unica.Runtime

open Lib InlineAttempt InlineSlotState Option List
open Receipt (ReceiptTerminalOutcome)

variable {π β τ ρ ε : Type} {host : InlineHost π τ ρ ε}
variable {report : InlineWorkerReport π} {s : InlineAttempt π β τ ρ ε} {k : Bool}

/-! ## Where the report is -/

/-- The worker has not deposited its report. -/
def InlineWorker.undeposited : InlineWorker π β τ → Bool
  | starting | preparing | executing _ | settling _ => true
  | _ => false

theorem isFinished_of_undeposited {worker : InlineWorker π β τ} (h : worker.undeposited = true) :
    worker.isFinished = false := by
  cases worker <;> first | rfl | cases h

/-- The report the worker turns into the outcome of the Task it was given. -/
def InlineWorker.working : InlineWorker π β τ → Option (InlineWorkerReport π)
  | executingTask prepared _ => some (.knownLong prepared)
  | publishing report _ _ => some report
  | _ => none

theorem isFinished_of_working {worker : InlineWorker π β τ}
    (h : worker.working = some report) : worker.isFinished = false := by
  cases worker <;> first | rfl | cases h

/-- The worker while no one has decided: at work, or asleep behind its report. -/
def Undecided (worker : InlineWorker π β τ) (deposited : Option (InlineWorkerReport π)) : Prop :=
  worker.undeposited = true ∧ deposited = none ∨ ∃ k report, worker = .waiting k ∧ deposited = some report

/-- The worker has nothing left to do than to wake. -/
def Resting (worker : InlineWorker π β τ) : Prop := worker = .finished ∨ ∃ k, worker = .waiting k

theorem Resting.finished {worker : InlineWorker π β τ} (h : Resting worker)
    (hfinished : worker.isFinished = true) : worker = .finished := by
  rcases h with h | ⟨k, rfl⟩
  · exact h
  · cases hfinished

/-- Points of the commit before the report is taken. -/
inductive Commits : InlineHandler π β τ ρ ε → Prop where
  | beginning : Commits .beginning
  | staging : Commits .staging
  | completing : Commits .completing
  | bound {bound : β} {task : τ} : Commits (.committed (.ok (.bound bound task)))

/-- Points of a handler that has delivered the report. -/
inductive Owns : InlineHandler π β τ ρ ε → Prop where
  | direct {drive : InlineDrive π ρ} : Owns (.joiningDirect drive)
  | terminal {reply : ρ} : Owns (.joiningTerminal reply)
  | returned {result : Except ε (InlineDrive π ρ)} : Owns (.returned result)
  | continued : Owns .continued

inductive Phase : InlineAttempt π β τ ρ ε → Prop where
  /-- Before the cutoff. -/
  | waiting {worker deposited executed} (hworker : worker.undeposited = true ∧ deposited = none ∨
        worker = .finished ∧ ∃ report, deposited = some report) :
      Phase ⟨⟨.waiting, deposited⟩, .looking, worker, .absent, none, deposited, [], [], executed, 0⟩
  | committing {point worker deposited executed} (hpoint : Commits point)
      (hworker : Undecided worker deposited) :
      Phase ⟨⟨.handoffInProgress, deposited⟩, point, worker, .absent, none, deposited, [], [],
        executed, 0⟩
  | publishingStaged {outcome k executed} :
      Phase ⟨⟨.handoffInProgress, none⟩, .publishingStaged outcome, .waiting k, .absent, none,
        some (.outcome outcome), [], [], executed, 0⟩
  | completingStaged {outcome k executed} :
      Phase ⟨⟨.handoffInProgress, none⟩, .completingStaged outcome, .waiting k, .absent, some outcome,
        some (.outcome outcome), [], [], executed, 0⟩
  | failing {report error worker staged deposited lost executed}
      (hworker : Undecided worker deposited) :
      Phase ⟨⟨.handoffInProgress, report⟩, .committed (.error error), worker, .absent, staged, deposited,
        [], lost, executed, 0⟩
  /-- The commit has failed. -/
  | abandoned {report error worker staged deposited lost executed}
      (hworker : worker.undeposited = true ∨ Resting worker) :
      Phase ⟨⟨.abandoned, report⟩, .returned (.error error), worker, .absent, staged, deposited, [], lost,
        executed, 1⟩
  /-- The handler brings the report into the Task it has bound. -/
  | joining {report bound task worker executed} (hworker : Resting worker) :
      Phase ⟨⟨.handlerOwns, none⟩, .joiningTask report bound task, worker, .absent, none, some report, [],
        [], executed, 0⟩
  | joined {report bound task executed} :
      Phase ⟨⟨.handlerOwns, none⟩, joinedTask report bound task, .finished, .absent, none,
        some report, [], [], executed, 0⟩
  /-- The worker has the Task. -/
  | given {ownership reply worker deposited executed}
      (hworker : worker.undeposited = true ∧ deposited = none ∨
        ∃ report, worker.working = some report ∧ deposited = some report) :
      Phase ⟨⟨.task ownership, none⟩, .returned (.ok (.handedOff reply)), worker, .absent, none, deposited,
        [], [], executed, 0⟩
  | staged {outcome k reply executed staged} :
      Phase ⟨⟨.handoffInProgress, none⟩, .committed (.ok (.terminal reply)), .waiting k, .absent, staged,
        some (.outcome outcome), [(.handlerStaged, .outcome outcome)], [], executed, 0⟩
  /-- The handler has delivered. -/
  | owned {point worker thread staged consumer report executed dropped} (hpoint : Owns point)
      (hworker : Resting worker) :
      Phase ⟨⟨.handlerOwns, none⟩, point, worker, thread, staged, some report, [(consumer, report)], [],
        executed, dropped⟩
  /-- The worker has delivered. -/
  | published {ownership reply report executed dropped} :
      Phase ⟨⟨.task ownership, none⟩, .returned (.ok (.handedOff reply)), .finished, .absent, none,
        some report, [(.workerTask, report)], [], executed, dropped⟩

namespace InlineAttempt

variable {s s' : InlineAttempt π β τ ρ ε} {move : InlineMove π β τ ρ ε} {executed : List π}
  {point : InlineHandler π β τ ρ ε}

theorem phase_start : Phase (start : InlineAttempt π β τ ρ ε) := .waiting (.inl ⟨rfl, rfl⟩)

theorem step_cases (h : s.step host move = some s') :
    s.handlerStep host s.handler move = some s' ∨ s.workerStep host s.worker move = some s' ∨
      s.threadStep s.thread move = some s' := by
  unfold step at h
  cases hhandler : s.handlerStep host s.handler move with
  | some t =>
    rw [hhandler] at h
    exact .inl h
  | none =>
    rw [hhandler] at h
    cases hworker : s.workerStep host s.worker move with
    | some t =>
      rw [hworker] at h
      exact .inr (.inl h)
    | none =>
      rw [hworker] at h
      exact .inr (.inr h)

/-! ## What the steps do to the phase -/

theorem commits_step {worker : InlineWorker π β τ}
    {deposited : Option (InlineWorkerReport π)} (hpoint : Commits point)
    (hworker : Undecided worker deposited)
    (h : handlerStep host ⟨⟨.handoffInProgress, deposited⟩, point, worker, .absent, none, deposited, [],
      [], executed, 0⟩ point move = some s') : Phase s' := by
  cases hpoint with
  | beginning =>
    cases move <;> try cases h
    case begin result =>
      cases result with
      | ok =>
        cases h
        exact .committing .staging hworker
      | error =>
        cases h
        exact .failing hworker
  | staging =>
    cases move <;> cases h
    rcases hworker with ⟨hbefore, rfl⟩ | ⟨k, report, rfl, rfl⟩
    · exact .committing .completing (.inl ⟨hbefore, rfl⟩)
    · cases report with
      | outcome => exact .publishingStaged
      | _ => exact .committing .completing (.inr ⟨k, _, rfl, rfl⟩)
  | completing =>
    cases move <;> cases h
    case refl result =>
      cases result with
      | ok => exact .committing .bound hworker
      | error => exact .failing hworker
  | bound =>
    cases move <;> cases h
    rcases hworker with ⟨hbefore, rfl⟩ | ⟨k, report, rfl, rfl⟩
    · exact .given (.inl ⟨hbefore, rfl⟩)
    · exact .joining (.inr ⟨k, rfl⟩)

/-- All that is left after the return is the prepared call the caller was handed. -/
theorem returned_step {result : Except ε (InlineDrive π ρ)}
    (h : s.handlerStep host (.returned result) move = some s') :
    ∃ prepared executes, result = .ok (.knownLong prepared) ∧ s' = { s with
      handler := .continued
      executed := s.executed ++ if executes = true then [prepared] else [] } := by
  rcases result with error | (_ | prepared | _ | _) <;> cases move <;> cases h
  exact ⟨prepared, _, rfl, rfl⟩

theorem owns_step {worker : InlineWorker π β τ} {thread : TaskThread π β}
    {staged : Option ReceiptTerminalOutcome} {consumer : Consumer}
    {dropped : Nat} (hpoint : Owns point) (hworker : Resting worker)
    (h : handlerStep host ⟨⟨.handlerOwns, none⟩, point, worker, thread, staged, some report,
      [(consumer, report)], [], executed, dropped⟩ point move = some s') : Phase s' := by
  cases hpoint with
  | direct | terminal =>
    cases move <;> try cases h
    case join =>
      obtain ⟨-, rfl⟩ := ite_none_right_eq_some.mp h |>.imp_right some.inj
      exact .owned .returned hworker
  | returned =>
    obtain ⟨prepared, executes, -, rfl⟩ := returned_step h
    exact .owned .continued hworker
  | continued => cases move <;> cases h

/-- The report goes into the Task, whatever the publication or the start of its thread returns. -/
theorem joined_step {bound : β} {task : τ}
    (h : handlerStep host ⟨⟨.handlerOwns, none⟩, joinedTask report bound task, .finished, .absent, none,
      some report, [], [], executed, 0⟩ (joinedTask report bound task) move = some s') : Phase s' := by
  cases report with
  | knownLong =>
    cases move <;> try cases h
    case spawn result =>
      cases result <;> cases h
      · exact .owned .returned (.inl rfl)
      · exact .owned .returned (.inl rfl)
  | _ =>
    cases move <;> cases h
    exact .owned .returned (.inl rfl)

theorem phase_handlerStep (hphase : Phase s) (h : s.handlerStep host s.handler move = some s') :
    Phase s' := by
  cases hphase with
  | waiting hworker =>
    cases move <;> cases h
    case refl cutoffPassed =>
      rcases hworker with ⟨hbefore, rfl⟩ | ⟨rfl, report, rfl⟩
      · have hrunning := isFinished_of_undeposited hbefore
        simp only [look, hrunning, Bool.false_eq_true, if_false]
        cases cutoffPassed with
        | false => exact .waiting (.inl ⟨hbefore, rfl⟩)
        | true => exact .committing .beginning (.inl ⟨hbefore, rfl⟩)
      · exact .owned .direct (.inl rfl)
  | committing hpoint hworker => exact commits_step hpoint hworker h
  | publishingStaged =>
    cases move <;> try cases h
    case publishStaged result =>
      cases result <;> cases h
      · exact .failing (.inr ⟨_, _, rfl, rfl⟩)
      · exact .completingStaged
  | completingStaged =>
    cases move <;> cases h
    case refl result =>
      cases result with
      | ok => exact .staged
      | error => exact .failing (.inr ⟨_, _, rfl, rfl⟩)
  | failing hworker =>
    cases move <;> cases h
    refine .abandoned (hworker.imp And.left ?_)
    rintro ⟨k, -, rfl, -⟩
    exact .inr ⟨k, rfl⟩
  | abandoned => cases move <;> cases h
  | joining hworker =>
    cases move <;> try cases h
    case join =>
      obtain ⟨hfinished, rfl⟩ := ite_none_right_eq_some.mp h |>.imp_right some.inj
      obtain rfl := hworker.finished hfinished
      exact .joined
  | @joined report => exact joined_step h
  | given => cases move <;> cases h
  | staged =>
    cases move <;> cases h
    exact .owned .terminal (.inr ⟨_, rfl⟩)
  | owned hpoint hworker => exact owns_step hpoint hworker h
  | published => cases move <;> cases h

/-- Until it deposits its report the worker changes nothing of the others'. -/
theorem undeposited_step {worker : InlineWorker π β τ} (hworker : worker.undeposited = true)
    (h : s.workerStep host worker move = some s') :
    (∃ next executed, next.undeposited = true ∧ s' = { s with worker := next, executed }) ∨
      ∃ report, worker = .settling report ∧ s' = (s.deposit report).pass report.isKnownLong := by
  cases worker with
  | starting =>
    cases move <;> try cases h
    case check restartRequired =>
      cases restartRequired <;> cases h <;> exact .inl ⟨_, _, rfl, rfl⟩
  | preparing =>
    cases move <;> try cases h
    case prepare result =>
      cases result with
      | error =>
        cases h
        exact .inl ⟨_, _, rfl, rfl⟩
      | ok prepared =>
        simp only [workerStep] at h
        split at h <;> cases h <;> exact .inl ⟨_, _, rfl, rfl⟩
  | executing =>
    cases move <;> cases h
    exact .inl ⟨_, _, rfl, rfl⟩
  | settling =>
    cases move <;> cases h
    exact .inr ⟨_, rfl, rfl⟩
  | _ => cases hworker

/-- A worker asleep wakes to look at the decision. -/
theorem waiting_step (h : s.workerStep host (.waiting k) move = some s') : s' = s.pass k := by
  cases move <;> cases h
  rfl

theorem finished_step (h : s.workerStep host .finished move = some s') : False := by
  cases move <;> cases h

/-- With the Task the worker executes what it has to and publishes. -/
theorem working_step {worker : InlineWorker π β τ}
    (hworker : worker.working = some report) (h : s.workerStep host worker move = some s') :
    (∃ next executed, next.working = some report ∧ s' = { s with worker := next, executed }) ∨
      ∃ dropped, s' = { s with
        worker := .finished
        delivered := s.delivered ++ [(.workerTask, report)]
        dropped := s.dropped + dropped } := by
  cases worker with
  | executingTask =>
    cases hworker
    cases move <;> cases h
    exact .inl ⟨_, _, rfl, rfl⟩
  | publishing =>
    cases hworker
    cases move <;> cases h
    exact .inr ⟨_, rfl⟩
  | _ => cases hworker

theorem phase_workerStep (hphase : Phase s) (h : s.workerStep host s.worker move = some s') : Phase s' := by
  cases hphase with
  | waiting hworker =>
    rcases hworker with ⟨hbefore, rfl⟩ | ⟨rfl, -⟩
    · obtain ⟨next, executed, hnext, rfl⟩ | ⟨report, rfl, rfl⟩ := undeposited_step hbefore h
      · exact .waiting (.inl ⟨hnext, rfl⟩)
      · exact .waiting (.inr ⟨rfl, report, rfl⟩)
    · exact (finished_step h).elim
  | committing hpoint hworker =>
    rcases hworker with ⟨hbefore, rfl⟩ | ⟨k, report, rfl, rfl⟩
    · obtain ⟨next, executed, hnext, rfl⟩ | ⟨report, rfl, rfl⟩ := undeposited_step hbefore h
      · exact .committing hpoint (.inl ⟨hnext, rfl⟩)
      · exact .committing hpoint (.inr ⟨_, report, rfl, rfl⟩)
    · obtain rfl := waiting_step h
      exact .committing hpoint (.inr ⟨k, report, rfl, rfl⟩)
  | publishingStaged =>
    obtain rfl := waiting_step h
    exact .publishingStaged
  | completingStaged =>
    obtain rfl := waiting_step h
    exact .completingStaged
  | failing hworker =>
    rcases hworker with ⟨hbefore, rfl⟩ | ⟨k, report, rfl, rfl⟩
    · obtain ⟨next, executed, hnext, rfl⟩ | ⟨report, rfl, rfl⟩ := undeposited_step hbefore h
      · exact .failing (.inl ⟨hnext, rfl⟩)
      · exact .failing (.inr ⟨_, report, rfl, rfl⟩)
    · obtain rfl := waiting_step h
      exact .failing (.inr ⟨k, report, rfl, rfl⟩)
  | abandoned hworker =>
    rcases hworker with hbefore | rfl | ⟨k, rfl⟩
    · obtain ⟨next, executed, hnext, rfl⟩ | ⟨report, rfl, rfl⟩ := undeposited_step hbefore h
      · exact .abandoned (.inl hnext)
      · exact .abandoned (.inr (.inl rfl))
    · exact (finished_step h).elim
    · obtain rfl := waiting_step h
      exact .abandoned (.inr (.inl rfl))
  | joining hworker =>
    rcases hworker with rfl | ⟨k, rfl⟩
    · exact (finished_step h).elim
    · obtain rfl := waiting_step h
      exact .joining (.inl rfl)
  | joined => exact (finished_step h).elim
  | given hworker =>
    rcases hworker with ⟨hbefore, rfl⟩ | ⟨report, hworking, rfl⟩
    · obtain ⟨next, executed, hnext, rfl⟩ | ⟨report, rfl, rfl⟩ := undeposited_step hbefore h
      · exact .given (.inl ⟨hnext, rfl⟩)
      · cases report <;> exact .given (.inr ⟨_, rfl, rfl⟩)
    · obtain ⟨next, executed, hnext, rfl⟩ | ⟨dropped, rfl⟩ := working_step hworking h
      · exact .given (.inr ⟨report, hnext, rfl⟩)
      · exact .published
  | staged =>
    obtain rfl := waiting_step h
    exact .staged
  | owned hpoint hworker =>
    rcases hworker with rfl | ⟨k, rfl⟩
    · exact (finished_step h).elim
    · obtain rfl := waiting_step h
      exact .owned hpoint (.inl rfl)
  | published => exact (finished_step h).elim

/-- Only a handler that has delivered starts a thread. -/
theorem phase_threadStep (hphase : Phase s) (h : s.threadStep s.thread move = some s') : Phase s' := by
  cases hphase with
  | @owned _ _ thread _ _ _ _ _ hpoint hworker =>
    cases thread with
    | executing | publishing =>
      cases move <;> cases h
      exact .owned hpoint hworker
    | _ => cases move <;> cases h
  | _ => cases move <;> cases h

theorem phase_step (hphase : Phase s) (h : s.step host move = some s') : Phase s' := by
  rcases step_cases h with h | h | h
  · exact phase_handlerStep hphase h
  · exact phase_workerStep hphase h
  · exact phase_threadStep hphase h

end InlineAttempt

/-! ## What every step spends

A call can be made by one thread only, and each thread comes nearer to its end. -/

def InlineWorkerReport.calls : InlineWorkerReport π → Nat
  | knownLong _ => 1
  | _ => 0

def InlineDrive.calls : InlineDrive π ρ → Nat
  | knownLong _ => 1
  | _ => 0

@[simp] def InlineHandler.calls : InlineHandler π β τ ρ ε → Nat
  | joiningDirect drive | returned (.ok drive) => drive.calls
  | spawning _ _ _ => 1
  | joiningTask report _ _ => report.calls
  | _ => 0

@[simp] def InlineWorker.calls : InlineWorker π β τ → Nat
  | starting | preparing | executing _ | executingTask _ _ => 1
  | settling report => report.calls
  | _ => 0

@[simp] def TaskThread.calls : TaskThread π β → Nat
  | executing _ _ => 1
  | _ => 0

@[simp] def InlineHandler.rank : InlineHandler π β τ ρ ε → Nat
  | looking => 11
  | beginning => 10
  | staging => 9
  | publishingStaged _ => 8
  | completingStaged _ | completing => 7
  | joiningDirect _ | committed _ => 6
  | joiningTerminal _ | joiningTask _ _ _ => 5
  | publishing _ _ _ _ | spawning _ _ _ => 4
  | returned _ => 1
  | continued => 0

@[simp] def InlineWorker.rank : InlineWorker π β τ → Nat
  | starting => 7
  | preparing => 6
  | executing _ => 5
  | settling _ => 4
  | waiting _ => 3
  | executingTask _ _ => 2
  | publishing _ _ _ => 1
  | finished | panicked => 0

@[simp] def TaskThread.rank : TaskThread π β → Nat
  | executing _ _ => 2
  | publishing _ _ => 1
  | _ => 0

@[simp] theorem InlineWorkerReport.drive_calls : (report.drive : InlineDrive π ρ).calls = report.calls := by
  cases report <;> rfl

namespace InlineAttempt

variable {s s' : InlineAttempt π β τ ρ ε} {move : InlineMove π β τ ρ ε}

/-- The calls made and those a thread may still make. -/
@[simp] def calls (s : InlineAttempt π β τ ρ ε) : Nat :=
  s.executed.length + s.slot.report.elim 0 InlineWorkerReport.calls + s.handler.calls + s.worker.calls
    + s.thread.calls

@[simp] def rank (s : InlineAttempt π β τ ρ ε) : Nat := s.handler.rank + s.worker.rank + s.thread.rank

/-- No call is made twice, and a step that changes anything brings the end nearer. -/
structure Spends (s s' : InlineAttempt π β τ ρ ε) : Prop where
  calls_le : s'.calls ≤ s.calls
  nearer : s' = s ∨ s'.rank < s.rank

theorem look_spends {cutoffPassed : Bool} (hhandler : s.handler = .looking) :
    Spends s (s.look cutoffPassed) := by
  unfold look
  split
  case h_1 report hreport =>
    constructor
    · simp [hreport, hhandler]
    · simp [hhandler]
  case h_2 =>
    split
    · constructor
      · simp [hhandler, InlineDrive.calls]
      · simp [hhandler]
    · split
      · constructor
        · simp [hhandler]
        · simp [hhandler]
      · exact ⟨le_rfl, .inl rfl⟩

theorem stage_spends (hhandler : s.handler = .staging) : Spends s s.stage := by
  unfold stage
  split
  · constructor
    · simp [hhandler]
    · simp [hhandler]
  · constructor
    · simp [hhandler]
    · simp [hhandler]

/-- Only the handler has moved on. -/
theorem Spends.handler (hexecuted : s'.executed = s.executed) (hreport : s'.slot.report = s.slot.report)
    (hworker : s'.worker = s.worker) (hthread : s'.thread = s.thread)
    (hcalls : s'.handler.calls ≤ s.handler.calls) (hrank : s'.handler.rank < s.handler.rank) :
    Spends s s' := by
  constructor
  · simp only [calls, hexecuted, hreport, hworker, hthread]
    omega
  · right
    simp only [rank, hworker, hthread]
    omega

theorem complete_spends {own : Option ReceiptTerminalOutcome} {result : Except ε (β × τ × ρ)}
    (hhandler : s.handler.rank = 7) : Spends s (s.complete host own result) := by
  unfold complete
  split
  all_goals
    refine .handler rfl rfl rfl rfl (Nat.zero_le _) ?_
    rw [hhandler]
    exact Nat.lt_succ_self 6

theorem relock_spends {commit : Except ε (CutoffCommit β τ ρ)} (hhandler : s.handler = .committed commit) :
    Spends s (s.relock host commit) := by
  unfold relock
  split
  · constructor
    · simp [hhandler]
    · simp [hhandler]
  · split
    case h_1 report hreport =>
      constructor
      · simp [hreport, hhandler]
      · simp [hhandler]
    case h_2 =>
      constructor
      · simp [hhandler, InlineDrive.calls]
      · simp [hhandler]
  · constructor
    · simp [hhandler]
    · simp [hhandler]

/-- A call that finds fail-stop latched is not made. -/
theorem ran_length (prepared : π) (outcome : Option ReceiptTerminalOutcome) :
    (ran prepared outcome).length ≤ 1 := by
  cases outcome <;> simp [ran]

/-- What the worker may call after a pass comes out of the slot. -/
theorem pass_calls : (s.pass k).calls + s.worker.calls ≤ s.calls := by
  obtain ⟨⟨decision, report⟩, handler, worker, thread⟩ := s
  cases decision with
  | task ownership =>
    rcases report with _ | (_ | _ | _)
    all_goals
      cases k <;> simp only [pass, settlePass, settled, calls, InlineWorker.calls,
        InlineWorkerReport.calls, Option.elim, if_true, if_false, Bool.false_eq_true] <;> omega
  | _ =>
    simp only [pass, settlePass, settled, calls, InlineWorker.calls]
    omega

theorem pass_rank : (s.pass k).rank + s.worker.rank ≤ s.rank + 3 ∧
    (s.worker = .waiting k → s.pass k = s ∨ (s.pass k).rank < s.rank) := by
  obtain ⟨⟨decision, report⟩, handler, worker, thread⟩ := s
  cases decision with
  | task ownership =>
    rcases report with _ | (_ | _ | _)
    all_goals
      cases k <;> simp [pass, settlePass, settled] <;> grind
  | _ =>
    simp [pass, settlePass, settled]
    grind

theorem handlerStep_spends (h : s.handlerStep host s.handler move = some s') : Spends s s' := by
  cases hhandler : s.handler <;> rw [hhandler] at h
  case returned =>
    obtain ⟨prepared, executes, rfl, rfl⟩ := returned_step h
    constructor
    · cases executes <;> simp [hhandler, InlineDrive.calls]
      omega
    · simp [hhandler]
  all_goals cases move <;> try cases h
  case looking.look.refl => exact look_spends hhandler
  case joiningDirect.join | joiningTerminal.join =>
    obtain ⟨-, rfl⟩ := ite_none_right_eq_some.mp h |>.imp_right some.inj
    refine .handler rfl rfl rfl rfl ?_ ?_ <;> simp [hhandler, InlineDrive.calls]
  case beginning.begin result =>
    cases result <;> cases h <;> refine .handler rfl rfl rfl rfl ?_ ?_ <;> simp [hhandler]
  case staging.stage.refl => exact stage_spends hhandler
  case publishingStaged.publishStaged result =>
    cases result <;> cases h <;> refine .handler rfl rfl rfl rfl ?_ ?_ <;> simp [hhandler]
  case completingStaged.complete.refl | completing.complete.refl =>
    exact complete_spends (by rw [hhandler]; rfl)
  case committed.relock.refl => exact relock_spends hhandler
  case joiningTask.join report _ _ =>
    obtain ⟨-, rfl⟩ := ite_none_right_eq_some.mp h |>.imp_right some.inj
    cases report <;> refine .handler rfl rfl rfl rfl ?_ ?_ <;>
      simp [hhandler, joinedTask, InlineWorkerReport.calls]
  case publishing.publish.refl result =>
    cases result <;> refine .handler rfl rfl rfl rfl ?_ ?_ <;>
      simp [hhandler, Except.map, InlineDrive.calls]
  case spawning.spawn result =>
    cases result with
    | error =>
      cases h
      refine .handler rfl rfl rfl rfl ?_ ?_ <;> simp [hhandler]
    | ok =>
      cases h
      constructor
      · simp only [calls, hhandler, InlineHandler.calls, InlineDrive.calls, TaskThread.calls]
        omega
      · right
        simp only [rank, hhandler, InlineHandler.rank, TaskThread.rank]
        omega

theorem workerStep_spends (h : s.workerStep host s.worker move = some s') : Spends s s' := by
  cases hworker : s.worker <;> rw [hworker] at h <;> cases move <;> try cases h
  case starting.check restartRequired =>
    cases restartRequired <;> cases h <;> constructor <;> simp [hworker, InlineWorkerReport.calls]
  case preparing.prepare result =>
    cases result with
    | error =>
      cases h
      constructor <;> simp [hworker, InlineWorkerReport.calls]
    | ok prepared =>
      simp only [workerStep] at h
      split at h <;> cases h <;> constructor <;> simp [hworker, InlineWorkerReport.calls]
  case executing.execute.refl prepared outcome =>
    have hran := ran_length prepared outcome
    constructor
    · simp only [calls, hworker, InlineWorker.calls, InlineWorkerReport.calls, length_append]
      omega
    · simp [hworker]
  case settling.settle.refl report =>
    have hcalls := pass_calls (s := s.deposit report) (k := report.isKnownLong)
    have hrank := (pass_rank (s := s.deposit report) (k := report.isKnownLong)).1
    have hslot : (s.deposit report).calls ≤ s.calls + report.calls := by
      simp only [calls, deposit, Option.elim]
      omega
    have hsettling : (s.deposit report).worker = .settling report := hworker
    have hsame : (s.deposit report).rank = s.rank := rfl
    rw [hsettling] at hcalls hrank
    simp only [InlineWorker.calls, InlineWorker.rank, hsame] at hcalls hrank
    exact ⟨by omega, .inr (by omega)⟩
  case waiting.wake.refl k =>
    exact ⟨(Nat.le_add_right _ _).trans pass_calls, pass_rank.2 hworker⟩
  case executingTask.execute.refl prepared _ outcome =>
    have hran := ran_length prepared outcome
    constructor
    · simp only [calls, hworker, InlineWorker.calls, length_append]
      omega
    · simp [hworker]
  case publishing.publishTask.refl =>
    constructor <;> simp [hworker]

theorem threadStep_spends (h : s.threadStep s.thread move = some s') : Spends s s' := by
  cases hthread : s.thread <;> rw [hthread] at h <;> cases move <;> try cases h
  case executing.threadExecute.refl prepared _ outcome =>
    have hran := ran_length prepared outcome
    constructor
    · simp only [calls, hthread, TaskThread.calls, length_append]
      omega
    · simp [hthread]
  case publishing.threadPublish.refl =>
    constructor <;> simp [hthread]

theorem step_spends (h : s.step host move = some s') : Spends s s' := by
  rcases step_cases h with h | h | h
  · exact handlerStep_spends h
  · exact workerStep_spends h
  · exact threadStep_spends h

/-! ## No thread gets stuck -/

/-- Some thread can take a step that brings the end nearer. -/
def Moves (host : InlineHost π τ ρ ε) (s : InlineAttempt π β τ ρ ε) : Prop :=
  ∃ move s', s.step host move = some s' ∧ s'.rank < s.rank

theorem Moves.handler (move : InlineMove π β τ ρ ε) (h : s.handlerStep host s.handler move = some s')
    (hne : s'.handler ≠ s.handler) : s.Moves host := by
  refine ⟨move, s', ?_, (handlerStep_spends h).nearer.resolve_left fun hs => hne (hs ▸ rfl)⟩
  rw [step, h]
  rfl

/-- The moves of a worker are not the handler's. -/
theorem Moves.worker (move : InlineMove π β τ ρ ε) (h : s.workerStep host s.worker move = some s')
    (hne : s'.worker ≠ s.worker) : s.Moves host := by
  have hnone : s.handlerStep host s.handler move = none := by
    cases move
    case check | prepare | execute | settle | wake | publishTask =>
      unfold handlerStep
      split <;> simp_all
    all_goals cases hworker : s.worker <;> rw [hworker] at h <;> cases h
  refine ⟨move, s', ?_, (workerStep_spends h).nearer.resolve_left fun hs => hne (hs ▸ rfl)⟩
  rw [step, hnone, h]
  rfl

theorem pass_deposited : (s.pass k).worker.undeposited = false := by
  obtain ⟨⟨decision, report⟩, handler, worker, thread⟩ := s
  cases decision with
  | task ownership =>
    rcases report with _ | (_ | _ | _)
    all_goals cases k <;> rfl
  | _ => rfl

theorem undeposited_moves (hworker : s.worker.undeposited = true) : s.Moves host := by
  obtain ⟨slot, handler, worker, thread, staged, deposited, delivered, lost, executed, dropped⟩ := s
  cases worker with
  | starting => exact .worker (.check true) rfl nofun
  | preparing => exact .worker (.prepare (.error "")) rfl nofun
  | executing => exact .worker (.execute none) rfl nofun
  | settling report =>
    refine .worker .settle rfl fun h => ?_
    have hafter := congrArg InlineWorker.undeposited h
    rw [pass_deposited] at hafter
    cases hafter
  | _ => cases hworker

theorem working_moves (hworker : s.worker.working = some report) : s.Moves host := by
  obtain ⟨slot, handler, worker, thread, staged, deposited, delivered, lost, executed, dropped⟩ := s
  cases worker with
  | executingTask => exact .worker (.execute none) rfl nofun
  | publishing => exact .worker .publishTask rfl nofun
  | _ => cases hworker

/-- A worker asleep after the decision wakes and ends. -/
theorem resting_moves (hworker : Resting s.worker)
    (hdecision : s.slot.decision = .handlerOwns ∨ s.slot.decision = .abandoned) :
    s.worker.isFinished = true ∨ s.Moves host := by
  obtain ⟨⟨decision, report⟩, handler, worker, thread, staged, deposited, delivered, lost, executed,
    dropped⟩ := s
  rcases hworker with rfl | ⟨k, rfl⟩
  · exact .inl rfl
  · right
    rcases hdecision with rfl | rfl
    · exact .worker .wake rfl nofun
    · exact .worker .wake rfl nofun

theorem moves_of_phase (hphase : Phase s) : s.Ended ∨ s.Moves host := by
  have hrests := @resting_moves π β τ ρ ε host s
  cases hphase with
  | waiting hworker =>
    right
    rcases hworker with ⟨hbefore, -⟩ | ⟨-, report, rfl⟩
    · exact undeposited_moves hbefore
    · exact .handler (.look false) rfl nofun
  | @committing _ _ deposited _ hpoint =>
    right
    cases hpoint with
    | beginning => exact .handler (.begin (.ok ())) rfl nofun
    | staging => rcases deposited with _ | (_ | _ | _) <;> exact .handler .stage rfl nofun
    | completing => exact .handler (.complete (.error host.corrupt)) rfl nofun
    | bound => rcases deposited with _ | _ <;> exact .handler .relock rfl nofun
  | publishingStaged => exact .inr (.handler (.publishStaged (.ok ())) rfl nofun)
  | completingStaged => exact .inr (.handler (.complete (.error host.corrupt)) rfl nofun)
  | failing | staged => exact .inr (.handler .relock rfl nofun)
  | abandoned hworker =>
    rcases hworker with hbefore | hresting
    · exact .inr (undeposited_moves hbefore)
    · exact (hrests hresting (.inr rfl)).imp_left fun h => ⟨.inr ⟨_, rfl⟩, h⟩
  | @joining report _ _ _ _ hworker =>
    right
    rcases hrests hworker (.inl rfl) with hfinished | hmoves
    · refine .handler .join (if_pos hfinished) ?_
      cases report <;> exact nofun
    · exact hmoves
  | @joined report =>
    right
    cases report with
    | knownLong => exact .handler (.spawn (.ok ())) rfl nofun
    | _ => exact .handler (.publish (.error host.corrupt)) rfl nofun
  | given hworker =>
    right
    rcases hworker with ⟨hbefore, -⟩ | ⟨report, hworking, -⟩
    · exact undeposited_moves hbefore
    · exact working_moves hworking
  | owned hpoint hworker =>
    rcases hrests hworker (.inl rfl) with hfinished | hmoves
    · cases hpoint with
      | direct | terminal => exact .inr (.handler .join (if_pos hfinished) nofun)
      | returned => exact .inl ⟨.inr ⟨_, rfl⟩, hfinished⟩
      | continued => exact .inl ⟨.inl rfl, hfinished⟩
    · exact .inr hmoves
  | published => exact .inl ⟨.inr ⟨_, rfl⟩, rfl⟩

end InlineAttempt

/-! ## The whole run -/

/-- The runs of an attempt from the start of its two threads. -/
def InlineRun (host : InlineHost π τ ρ ε) (s : InlineAttempt π β τ ρ ε) : Prop :=
  Runs (step host) (fun _ _ => True) .start s

theorem InlineRun.phase (h : InlineRun host s) : Phase s :=
  h.invariant phase_start fun _ _ _ hphase _ hstep => phase_step hphase hstep

theorem InlineRun.calls_le (h : InlineRun host s) : s.calls ≤ 1 :=
  h.invariant (I := fun s => s.calls ≤ 1) le_rfl
    fun _ _ _ hcalls _ hstep => (step_spends hstep).calls_le.trans hcalls

/-- Behind the end of both threads lies the delivery, unless the commit failed. -/
theorem Phase.ended (h : Phase s) (hended : s.Ended)
    (hcommit : s.slot.decision ≠ .abandoned) : s.delivered ≠ [] := by
  obtain ⟨hhandler, hworker⟩ := hended
  cases h with
  | staged | owned | published => exact cons_ne_nil _ _
  | abandoned => exact absurd rfl hcommit
  | given hgiven =>
    rcases hgiven with ⟨hbefore, -⟩ | ⟨report, hworking, -⟩
    · rw [isFinished_of_undeposited hbefore] at hworker
      cases hworker
    · rw [isFinished_of_working hworking] at hworker
      cases hworker
  | committing hpoint => cases hpoint <;> rcases hhandler with h | ⟨_, h⟩ <;> cases h
  | @joined report => cases report <;> rcases hhandler with h | ⟨_, h⟩ <;> cases h
  | _ => rcases hhandler with h | ⟨_, h⟩ <;> cases h

theorem Phase.dropped (h : Phase s) (hdropped : 0 < s.dropped)
    (hcommit : s.slot.decision ≠ .abandoned) : s.delivered ≠ [] := by
  cases h with
  | owned | published => exact cons_ne_nil _ _
  | abandoned => exact absurd rfl hcommit
  | _ => cases hdropped

theorem Phase.worker_ne_panicked (h : Phase s) : s.worker ≠ .panicked := by
  intro hpanicked
  cases h with
  | waiting hworker | committing _ hworker | failing hworker | abandoned hworker | joining hworker
  | owned _ hworker | given hworker =>
    subst hpanicked
    simp [Undecided, Resting, InlineWorker.undeposited, InlineWorker.working] at hworker
  | _ => cases hpanicked

/-- **The report of an inline attempt is delivered exactly once.** In every interleaving it is never
delivered twice, `settle` finds the report it put into the slot, no prepared call is executed twice,
and the guard is dropped behind the delivery; the attempt can always move on towards its end, and
at the end the report has been delivered. A failed commit of the handoff is excepted. -/
theorem inline_outcome_delivered_once (host : InlineHost π τ ρ ε) (s : InlineAttempt π β τ ρ ε)
    (h : InlineRun host s) :
    (s.delivered = [] ∨ ∃ consumer report, s.delivered = [(consumer, report)] ∧ s.deposited = some report) ∧
      (s.Ended → s.slot.decision ≠ .abandoned → s.delivered ≠ []) ∧
      (s.Ended ∨ s.Moves host) ∧ (∀ move s', s.step host move = some s' → s' = s ∨ s'.rank < s.rank) ∧
      s.worker ≠ .panicked ∧ s.executed.length ≤ 1 ∧
      (0 < s.dropped → s.slot.decision ≠ .abandoned → s.delivered ≠ []) := by
  have hphase := h.phase
  refine ⟨?_, hphase.ended, moves_of_phase hphase, ?_,
    hphase.worker_ne_panicked, ?_, hphase.dropped⟩
  · cases hphase with
    | staged | owned | published => exact .inr ⟨_, _, rfl, rfl⟩
    | _ => exact .inl rfl
  · intro move s' hstep
    exact (step_spends hstep).nearer
  · have hcalls := h.calls_le
    unfold calls at hcalls
    omega

/-! ## Two runs -/

def plainHost : InlineHost Unit Unit Unit Unit := ⟨fun _ => true, id, ()⟩

abbrev PlainAttempt := InlineAttempt Unit Unit Unit Unit Unit

/-- A known-long call whose class the worker learns while the handoff commits: the handler takes the
call into the Task it has bound. -/
def lateKnownLong : List (InlineMove Unit Unit Unit Unit Unit) :=
  [.look true, .begin (.ok ()), .stage, .check false, .prepare (.ok ()), .settle,
    .complete (.ok ((), (), ())), .relock, .wake, .join, .spawn (.ok ()), .threadExecute (some .cancelled),
    .threadPublish]

theorem inline_outcome_delivered_once_late : ∃ s : PlainAttempt, InlineRun plainHost s ∧ s.Ended ∧
    s.delivered = [(.handlerTask, .knownLong ())] ∧ s.executed.length ≤ 1 := by
  have hrun : ∃ s, replay (step plainHost) .start lateKnownLong = some s ∧ s.Ended ∧
      s.delivered = [(.handlerTask, .knownLong ())] :=
    ⟨_, rfl, ⟨.inr ⟨_, rfl⟩, rfl⟩, rfl⟩
  obtain ⟨s, hreplay, hended, hdelivered⟩ := hrun
  have honce := inline_outcome_delivered_once plainHost s (Runs.of_replay hreplay)
  exact ⟨s, Runs.of_replay hreplay, hended, hdelivered, honce.2.2.2.2.2.1⟩

/-- A handoff that cannot be begun at the cutoff: the handler returns and its guard is dropped while
the worker has not even started. -/
theorem guard_dropped_before_outcome : ∃ s : PlainAttempt, InlineRun plainHost s ∧ s.dropped = 1 ∧ s.delivered = [] ∧
    s.deposited = none ∧ s.worker = .starting := by
  have hrun : ∃ s : PlainAttempt, replay (step plainHost) .start
      [.look true, .begin (.error ()), .relock] = some s ∧ s.dropped = 1 ∧ s.delivered = [] ∧
      s.deposited = none ∧ s.worker = .starting :=
    ⟨_, rfl, rfl, rfl, rfl, rfl⟩
  obtain ⟨s, hreplay, hs⟩ := hrun
  exact ⟨s, Runs.of_replay hreplay, hs⟩

end Unica.Runtime
