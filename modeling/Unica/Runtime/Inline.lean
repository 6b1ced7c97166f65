import Unica.Lib.Machine
import Unica.Receipt.Types

/-!
# The inline execution of one begun receipt

The session handler owns the cutoff, a worker prepares and executes the call. They share a slot
behind one mutex. At the cutoff the handler leaves the mutex and commits the durable handoff; a
worker that ends meanwhile deposits its report and waits for the handoff's result. Every section
under the mutex is one step, and so is every call outside it. The row of the handoff gets a staged
terminal from the handler of this attempt only.
-/

namespace Unica.Runtime

open Lib
open Receipt (ReceiptTerminalOutcome)

/-- What the inline worker hands back to the session handler. -/
inductive InlineWorkerReport (π : Type) where
  | rejected (result : String)
  | knownLong (prepared : π)
  | outcome (outcome : ReceiptTerminalOutcome)
  deriving DecidableEq

/-- The Task an inline attempt continues into; `guard` is there until it is taken. -/
structure InlineTaskOwnership (β τ : Type) where
  bound : β
  task : τ
  guard : Bool
  deriving DecidableEq

/-- Who delivers the outcome once the worker has it. -/
inductive InlineHandoffDecision (β τ : Type) where
  | waiting | handoffInProgress | handlerOwns
  | task (ownership : InlineTaskOwnership β τ)
  | abandoned
  deriving DecidableEq

structure InlineSlotState (π β τ : Type) where
  decision : InlineHandoffDecision β τ
  report : Option (InlineWorkerReport π)
  deriving DecidableEq

inductive InlineSettlement (π β τ : Type) where
  | handlerOwns | abandoned
  | task (report : InlineWorkerReport π) (ownership : InlineTaskOwnership β τ)
  deriving DecidableEq

/-- One pass of the loop in `settle`. -/
inductive SettlePass (π β τ : Type) where
  | returns (settlement : InlineSettlement π β τ)
  | waits
  /-- "a settled report stays in the slot until claimed" -/
  | panics
  deriving DecidableEq

inductive CutoffCommit (β τ ρ : Type) where
  | bound (bound : β) (task : τ)
  | terminal (reply : ρ)
  deriving DecidableEq

inductive InlineDrive (π ρ : Type) where
  | rejected (result : String)
  | knownLong (prepared : π)
  | direct (outcome : ReceiptTerminalOutcome)
  | handedOff (reply : ρ)
  deriving DecidableEq

/-- Where the handler stands. Points from `beginning` to `completing` are inside
`commit_cutoff_handoff`, outside the mutex. -/
inductive InlineHandler (π β τ ρ ε : Type) where
  | looking
  | joiningDirect (drive : InlineDrive π ρ)
  | beginning
  | staging
  | publishingStaged (outcome : ReceiptTerminalOutcome)
  | completingStaged (outcome : ReceiptTerminalOutcome)
  | completing
  | committed (commit : Except ε (CutoffCommit β τ ρ))
  | joiningTerminal (reply : ρ)
  | joiningTask (report : InlineWorkerReport π) (bound : β) (task : τ)
  | publishing (report : InlineWorkerReport π) (outcome : ReceiptTerminalOutcome) (bound : β) (task : τ)
  | spawning (prepared : π) (bound : β) (task : τ)
  | returned (result : Except ε (InlineDrive π ρ))
  /-- The caller has dealt with the prepared call of a `KnownLong` drive. -/
  | continued

inductive InlineWorker (π β τ : Type) where
  | starting
  | preparing
  | executing (prepared : π)
  | settling (report : InlineWorkerReport π)
  /-- Asleep in `settle`, called for a known-long class or not. -/
  | waiting (knownLong : Bool)
  | executingTask (prepared : π) (ownership : InlineTaskOwnership β τ)
  | publishing (report : InlineWorkerReport π) (outcome : ReceiptTerminalOutcome)
      (ownership : InlineTaskOwnership β τ)
  | finished
  | panicked
  deriving DecidableEq

/-- The thread `spawn_task_execution` starts. -/
inductive TaskThread (π β : Type) where
  | absent
  | executing (prepared : π) (bound : β)
  | publishing (outcome : ReceiptTerminalOutcome) (bound : β)
  | finished
  deriving DecidableEq

/-- Who took the report, and for what. -/
inductive Consumer where
  | handlerDirect | handlerStaged | handlerTask | workerTask
  deriving DecidableEq

/-- The threads of one attempt and their slot. `staged` is the terminal in the row of the handoff.
The last five fields say what has happened: what the worker deposited, who delivered which
report, what got lost, which calls were executed, and how often the guard was dropped. -/
structure InlineAttempt (π β τ ρ ε : Type) where
  slot : InlineSlotState π β τ
  handler : InlineHandler π β τ ρ ε
  worker : InlineWorker π β τ
  thread : TaskThread π β
  staged : Option ReceiptTerminalOutcome
  deposited : Option (InlineWorkerReport π)
  delivered : List (Consumer × InlineWorkerReport π)
  lost : List (InlineWorkerReport π)
  executed : List π
  dropped : Nat

/-- What the attempt asks of its host: the class of a prepared call, the reply for a Task, and the
error of a staged handoff that completed without its terminal. -/
structure InlineHost (π τ ρ ε : Type) where
  isKnownLong : π → Bool
  taskReply : τ → ρ
  corrupt : ε

/-- One step, with what the calls it makes return. An execution that finds fail-stop latched gives
no outcome. -/
inductive InlineMove (π β τ ρ ε : Type) where
  | look (cutoffPassed : Bool)
  | begin (result : Except ε Unit)
  | stage
  | publishStaged (result : Except ε Unit)
  | complete (result : Except ε (β × τ × ρ))
  | relock
  | join
  | publish (result : Except ε ρ)
  | spawn (result : Except ε Unit)
  | resume (executes : Bool)
  | check (restartRequired : Bool)
  | prepare (result : Except String π)
  | execute (outcome : Option ReceiptTerminalOutcome)
  | settle
  | wake
  | publishTask
  | threadExecute (outcome : Option ReceiptTerminalOutcome)
  | threadPublish

section Machine

variable {π β τ ρ ε : Type}

def interrupted : ReceiptTerminalOutcome := .failed .interrupted

def InlineSlotState.settlePass (slot : InlineSlotState π β τ) :
    SettlePass π β τ × InlineSlotState π β τ :=
  match slot.decision with
  | .waiting | .handlerOwns => (.returns .handlerOwns, slot)
  | .abandoned => (.returns .abandoned, slot)
  | .task ownership =>
      match slot.report with
      | some report =>
          (.returns (.task report ownership), ⟨.task { ownership with guard := false }, none⟩)
      | none => (.panics, { slot with decision := .task { ownership with guard := false } })
  | .handoffInProgress => (.waits, slot)

def InlineWorkerReport.drive : InlineWorkerReport π → InlineDrive π ρ
  | rejected result => .rejected result
  | knownLong prepared => .knownLong prepared
  | outcome value => .direct value

def InlineWorkerReport.isKnownLong : InlineWorkerReport π → Bool
  | knownLong _ => true
  | _ => false

/-- `JoinHandle::is_finished`, also when `join` returns. -/
def InlineWorker.isFinished : InlineWorker π β τ → Bool
  | finished | panicked => true
  | _ => false

/-- A guard that goes out of scope. -/
def drops (guard : Bool) : Nat := if guard then 1 else 0

/-- What a call leaves in the list of executed ones. -/
def ran (prepared : π) : Option ReceiptTerminalOutcome → List π
  | some _ => [prepared]
  | none => []

namespace InlineAttempt

def start : InlineAttempt π β τ ρ ε :=
  ⟨⟨.waiting, none⟩, .looking, .starting, .absent, none, none, [], [], [], 0⟩

/-- One pass of the handler's loop, under the mutex. -/
def look (s : InlineAttempt π β τ ρ ε) (cutoffPassed : Bool) : InlineAttempt π β τ ρ ε :=
  match s.slot.report with
  | some report =>
      { s with
        slot := ⟨.handlerOwns, none⟩
        handler := .joiningDirect report.drive
        delivered := s.delivered ++ [(.handlerDirect, report)] }
  | none =>
      if s.worker.isFinished then
        { s with
          slot := { s.slot with decision := .handlerOwns }
          handler := .joiningDirect (.direct (.failed .invocationFailed)) }
      else if cutoffPassed then
        { s with slot := { s.slot with decision := .handoffInProgress }, handler := .beginning }
      else s

/-- An outcome in the slot goes into the handoff, any other report stays. -/
def stage (s : InlineAttempt π β τ ρ ε) : InlineAttempt π β τ ρ ε :=
  match s.slot.report with
  | some (.outcome outcome) =>
      { s with slot := { s.slot with report := none }, handler := .publishingStaged outcome }
  | _ => { s with handler := .completing }

/-- `complete_handoff_into_task`, called with the outcome that was staged or none. The row says
whether the Task starts or has its terminal. -/
def complete (host : InlineHost π τ ρ ε) (s : InlineAttempt π β τ ρ ε) (own : Option ReceiptTerminalOutcome)
    (result : Except ε (β × τ × ρ)) : InlineAttempt π β τ ρ ε :=
  match result, s.staged, own with
  | .ok (_, _, reply), some _, some outcome =>
      { s with
        handler := .committed (.ok (.terminal reply))
        delivered := s.delivered ++ [(.handlerStaged, .outcome outcome)] }
  | .ok (_, _, reply), some _, none => { s with handler := .committed (.ok (.terminal reply)) }
  | .ok (bound, task, _), none, none => { s with handler := .committed (.ok (.bound bound task)) }
  | .ok _, none, some outcome =>
      { s with handler := .committed (.error host.corrupt), lost := s.lost ++ [.outcome outcome] }
  | .error error, _, some outcome =>
      { s with handler := .committed (.error error), lost := s.lost ++ [.outcome outcome] }
  | .error error, _, none => { s with handler := .committed (.error error) }

/-- The handler takes the mutex again after the commit. -/
def relock (host : InlineHost π τ ρ ε) (s : InlineAttempt π β τ ρ ε) :
    Except ε (CutoffCommit β τ ρ) → InlineAttempt π β τ ρ ε
  | .ok (.terminal reply) =>
      { s with slot := { s.slot with decision := .handlerOwns }, handler := .joiningTerminal reply }
  | .ok (.bound bound task) =>
      match s.slot.report with
      | some report =>
          { s with slot := ⟨.handlerOwns, none⟩, handler := .joiningTask report bound task }
      | none =>
          { s with
            slot := { s.slot with decision := .task ⟨bound, task, true⟩ }
            handler := .returned (.ok (.handedOff (host.taskReply task))) }
  | .error error =>
      { s with
        slot := { s.slot with decision := .abandoned }
        handler := .returned (.error error)
        dropped := s.dropped + 1 }

/-- The handler after `worker.join()` with the report of a bound Task in its hands. -/
def joinedTask (report : InlineWorkerReport π) (bound : β) (task : τ) : InlineHandler π β τ ρ ε :=
  match report with
  | .outcome outcome => .publishing report outcome bound task
  | .rejected result => .publishing report (.completed result) bound task
  | .knownLong prepared => .spawning prepared bound task

/-- The worker after `settle` has returned. Where it was called for a known-long class, any other
report is dropped with the ownership. -/
def settled (s : InlineAttempt π β τ ρ ε) (knownLong : Bool) :
    InlineSettlement π β τ → InlineAttempt π β τ ρ ε
  | .handlerOwns | .abandoned => { s with worker := .finished }
  | .task (.knownLong prepared) ownership => { s with worker := .executingTask prepared ownership }
  | .task report ownership =>
      if knownLong then
        { s with
          worker := .finished
          lost := s.lost ++ [report]
          dropped := s.dropped + drops ownership.guard }
      else
        match report with
        | .outcome outcome => { s with worker := .publishing report outcome ownership }
        | .rejected result => { s with worker := .publishing report (.completed result) ownership }
        | .knownLong prepared => { s with worker := .executingTask prepared ownership }

/-- The worker makes one pass in `settle`. -/
def pass (s : InlineAttempt π β τ ρ ε) (knownLong : Bool) : InlineAttempt π β τ ρ ε :=
  match s.slot.settlePass with
  | (.returns settlement, slot) => { s with slot }.settled knownLong settlement
  | (.waits, slot) => { s with slot, worker := .waiting knownLong }
  | (.panics, slot) => { s with slot, worker := .panicked }

def deposit (s : InlineAttempt π β τ ρ ε) (report : InlineWorkerReport π) : InlineAttempt π β τ ρ ε :=
  { s with slot := { s.slot with report := some report }, deposited := some report }

/-- The handler's steps, by the point it stands at. -/
def handlerStep (host : InlineHost π τ ρ ε) (s : InlineAttempt π β τ ρ ε) :
    InlineHandler π β τ ρ ε → InlineMove π β τ ρ ε → Option (InlineAttempt π β τ ρ ε)
  | .looking, .look cutoffPassed => some (s.look cutoffPassed)
  | .beginning, .begin (.ok _) => some { s with handler := .staging }
  | .beginning, .begin (.error error) => some { s with handler := .committed (.error error) }
  | .staging, .stage => some s.stage
  | .publishingStaged outcome, .publishStaged (.ok _) =>
      some { s with handler := .completingStaged outcome, staged := some outcome }
  | .publishingStaged outcome, .publishStaged (.error error) =>
      some { s with handler := .committed (.error error), lost := s.lost ++ [.outcome outcome] }
  | .completingStaged outcome, .complete result => some (s.complete host (some outcome) result)
  | .completing, .complete result => some (s.complete host none result)
  | .committed commit, .relock => some (s.relock host commit)
  | .joiningDirect drive, .join =>
      if s.worker.isFinished then
        some { s with handler := .returned (.ok drive), dropped := s.dropped + 1 }
      else none
  | .joiningTerminal reply, .join =>
      if s.worker.isFinished then
        some { s with handler := .returned (.ok (.handedOff reply)), dropped := s.dropped + 1 }
      else none
  | .joiningTask report bound task, .join =>
      if s.worker.isFinished then some { s with handler := joinedTask report bound task } else none
  | .publishing report _ _ _, .publish result =>
      some { s with
        handler := .returned (result.map .handedOff)
        delivered := s.delivered ++ [(.handlerTask, report)]
        dropped := s.dropped + 1 }
  | .spawning prepared bound task, .spawn (.ok _) =>
      some { s with
        handler := .returned (.ok (.handedOff (host.taskReply task)))
        thread := .executing prepared bound
        delivered := s.delivered ++ [(.handlerTask, .knownLong prepared)] }
  | .spawning prepared _ _, .spawn (.error error) =>
      some { s with
        handler := .returned (.error error)
        delivered := s.delivered ++ [(.handlerTask, .knownLong prepared)]
        dropped := s.dropped + 1 }
  | .returned (.ok (.knownLong prepared)), .resume executes =>
      some { s with
        handler := .continued
        executed := s.executed ++ if executes then [prepared] else [] }
  | _, _ => none

/-- The worker's steps, by the point it stands at. -/
def workerStep (host : InlineHost π τ ρ ε) (s : InlineAttempt π β τ ρ ε) :
    InlineWorker π β τ → InlineMove π β τ ρ ε → Option (InlineAttempt π β τ ρ ε)
  | .starting, .check true => some { s with worker := .settling (.outcome interrupted) }
  | .starting, .check false => some { s with worker := .preparing }
  | .preparing, .prepare (.error result) => some { s with worker := .settling (.rejected result) }
  | .preparing, .prepare (.ok prepared) =>
      if host.isKnownLong prepared then some { s with worker := .settling (.knownLong prepared) }
      else some { s with worker := .executing prepared }
  | .executing prepared, .execute outcome =>
      some { s with
        worker := .settling (.outcome (outcome.getD interrupted))
        executed := s.executed ++ ran prepared outcome }
  | .settling report, .settle => some ((s.deposit report).pass report.isKnownLong)
  | .waiting knownLong, .wake => some (s.pass knownLong)
  | .executingTask prepared ownership, .execute outcome =>
      some { s with
        worker := .publishing (.knownLong prepared) (outcome.getD interrupted) ownership
        executed := s.executed ++ ran prepared outcome }
  | .publishing report _ ownership, .publishTask =>
      some { s with
        worker := .finished
        delivered := s.delivered ++ [(.workerTask, report)]
        dropped := s.dropped + drops ownership.guard }
  | _, _ => none

def threadStep (s : InlineAttempt π β τ ρ ε) :
    TaskThread π β → InlineMove π β τ ρ ε → Option (InlineAttempt π β τ ρ ε)
  | .executing prepared bound, .threadExecute outcome =>
      some { s with
        thread := .publishing (outcome.getD interrupted) bound
        executed := s.executed ++ ran prepared outcome }
  | .publishing _ _, .threadPublish => some { s with thread := .finished, dropped := s.dropped + 1 }
  | _, _ => none

def step (host : InlineHost π τ ρ ε) (s : InlineAttempt π β τ ρ ε) (move : InlineMove π β τ ρ ε) :
    Option (InlineAttempt π β τ ρ ε) :=
  s.handlerStep host s.handler move <|> s.workerStep host s.worker move <|> s.threadStep s.thread move

/-- The handler has returned and the worker has ended. -/
def Ended (s : InlineAttempt π β τ ρ ε) : Prop :=
  (s.handler = .continued ∨ ∃ result, s.handler = .returned result) ∧ s.worker.isFinished = true

end InlineAttempt

end Machine

end Unica.Runtime
