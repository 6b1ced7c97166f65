import Unica.Lib.Machine
import Mathlib.Tactic.Common

/-!
# The pipeline of one reserved invocation

A session handler owns the reply and the cutoff, a worker runs the pipeline. They share a
slot behind one mutex: every test and every change of the slot is one step, and between
two of them the other thread may do anything. At the cutoff the handler leaves the mutex,
promotes the receipt to a Task and answers with it; a worker that meets a promotion in
progress waits for its end.
-/

namespace Unica.Runtime

open Lib

/-- Who answers the request while the worker runs the pipeline. -/
inductive PipelineDecision where
  | waiting | handoffInProgress | handlerOwns | promotedByOwner
  deriving DecidableEq

inductive PipelineReport (ρ ε : Type) where
  | reply (reply : ρ)
  | failed (error : ε)
  deriving DecidableEq

/-- The slot; `ownerMaterialized` is the Task the handler materialized for the worker. -/
structure PipelineSlot (ρ ε τ : Type) where
  decision : PipelineDecision
  report : Option (PipelineReport ρ ε)
  begun : Bool
  ownerMaterialized : Option τ
  deriving DecidableEq

/-- What `promote_at_cutoff` returns: the reply of the Task, that the attempt ended, or an error. -/
inductive Promotion (ρ ε : Type) where
  | promoted (reply : ρ)
  | ended
  | failed (error : ε)
  deriving DecidableEq

/-- What the handler answers the request with. -/
inductive Answer (ρ ε : Type) where
  | report (report : PipelineReport ρ ε)
  | promotion (reply : ρ)
  | promotionFailed (error : ε)
  /-- "promoted invocation reported a reply after its owner answered" -/
  | corrupt
  /-- The worker died without a report. -/
  | storeUnavailable
  deriving DecidableEq

inductive Handler (ρ ε : Type) where
  | looking (cutoffSettled : Bool)
  | promoting
  | joining (answer : Answer ρ ε)
  | answered (answer : Answer ρ ε)
  deriving DecidableEq

/-- The worker after its pipeline has returned carries what it returned. -/
inductive Worker (ρ ε : Type) where
  | running
  | ended (outcome : PipelineReport ρ ε)
  | settling (outcome : PipelineReport ρ ε)
  | reporting (outcome : PipelineReport ρ ε)
  | reported (outcome : PipelineReport ρ ε)
  | releasing (outcome : PipelineReport ρ ε)
  | finished (outcome : PipelineReport ρ ε)
  deriving DecidableEq

/-- The two threads, their slot and the counter of promoted continuations. The last three fields
count what has happened: increments and decrements of the counter, and runs of
`settle_abandoned_promotion`. -/
structure Attempt (ρ ε τ : Type) where
  slot : PipelineSlot ρ ε τ
  handler : Handler ρ ε
  worker : Worker ρ ε
  promotedContinuations : Int
  increments : Nat
  decrements : Nat
  settlements : Nat
  deriving DecidableEq

/-- One step of one thread. `ask`, `take` and `claim` are what the pipeline does with the slot
before it returns. -/
inductive Move (ρ ε τ : Type) where
  | look (cutoffPassed : Bool)
  | stash (task : τ)
  | promote (promotion : Promotion ρ ε)
  | join
  | ask
  | take
  | claim
  | returns (outcome : PipelineReport ρ ε)
  | test
  | settle
  | report
  | retest
  | release
  deriving DecidableEq

section Machine

variable {ρ ε τ : Type}

def Worker.isFinished : Worker ρ ε → Bool
  | finished _ => true
  | _ => false

namespace Attempt

def start (promotedContinuations : Int) : Attempt ρ ε τ :=
  ⟨⟨.waiting, none, false, none⟩, .looking false, .running, promotedContinuations, 0, 0, 0⟩

/-- One pass of the handler's loop, under the mutex. A pass that finds nothing to do waits and
looks again. -/
def look (s : Attempt ρ ε τ) (cutoffSettled cutoffPassed : Bool) : Attempt ρ ε τ :=
  match s.slot.report with
  | some report =>
      let answer := if s.slot.decision = .promotedByOwner then .corrupt else .report report
      { s with
        slot := { s.slot with report := none, decision := .handlerOwns }
        handler := .joining answer }
  | none =>
      if s.worker.isFinished then { s with handler := .joining .storeUnavailable }
      else if s.slot.decision = .promotedByOwner ∨ s.slot.begun = true ∨ cutoffSettled = true then s
      else if cutoffPassed then
        { s with slot := { s.slot with decision := .handoffInProgress }, handler := .promoting }
      else s

/-- The handler takes the mutex again after its promotion. -/
def promoted (s : Attempt ρ ε τ) : Promotion ρ ε → Attempt ρ ε τ
  | .promoted reply =>
      { s with
        slot := { s.slot with decision := .promotedByOwner }
        handler := .answered (.promotion reply)
        promotedContinuations := s.promotedContinuations + 1
        increments := s.increments + 1 }
  | .ended => { s with slot := { s.slot with decision := .waiting }, handler := .looking true }
  | .failed error =>
      { s with
        slot := { s.slot with decision := .handlerOwns }
        handler := .answered (.promotionFailed error) }

/-- The drive claims the cutoff, or takes what the promotion left for it. -/
def claim (s : Attempt ρ ε τ) : Attempt ρ ε τ :=
  if s.slot.decision = .promotedByOwner then { s with slot := { s.slot with ownerMaterialized := none } }
  else { s with slot := { s.slot with begun := true } }

/-- The worker after `outcome.is_err() && slot.promoted_by_owner()`. -/
def tested (s : Attempt ρ ε τ) (outcome : PipelineReport ρ ε) : Attempt ρ ε τ :=
  match outcome with
  | .failed _ =>
      if s.slot.decision = .promotedByOwner then { s with worker := .settling outcome }
      else { s with worker := .reporting outcome }
  | .reply _ => { s with worker := .reporting outcome }

def retested (s : Attempt ρ ε τ) (outcome : PipelineReport ρ ε) : Attempt ρ ε τ :=
  if s.slot.decision = .promotedByOwner then { s with worker := .releasing outcome }
  else { s with worker := .finished outcome }

/-- Defined where the thread is at that point and does not wait for a promotion to end. A worker
with a reply makes its first test without the mutex. -/
def step (s : Attempt ρ ε τ) : Move ρ ε τ → Option (Attempt ρ ε τ)
  | .look cutoffPassed =>
      match s.handler with
      | .looking cutoffSettled => some (s.look cutoffSettled cutoffPassed)
      | _ => none
  | .stash task =>
      match s.handler with
      | .promoting => some { s with slot := { s.slot with ownerMaterialized := some task } }
      | _ => none
  | .promote promotion =>
      match s.handler with
      | .promoting => some (s.promoted promotion)
      | _ => none
  | .join =>
      match s.handler, s.worker with
      | .joining answer, .finished _ => some { s with handler := .answered answer }
      | _, _ => none
  | .ask =>
      match s.worker with
      | .running => if s.slot.decision = .handoffInProgress then none else some s
      | _ => none
  | .take =>
      match s.worker with
      | .running => some { s with slot := { s.slot with ownerMaterialized := none } }
      | _ => none
  | .claim =>
      match s.worker with
      | .running => if s.slot.decision = .handoffInProgress then none else some s.claim
      | _ => none
  | .returns outcome =>
      match s.worker with
      | .running => some { s with worker := .ended outcome }
      | _ => none
  | .test =>
      match s.worker with
      | .ended (.reply reply) => some (s.tested (.reply reply))
      | .ended (.failed error) =>
          if s.slot.decision = .handoffInProgress then none else some (s.tested (.failed error))
      | _ => none
  | .settle =>
      match s.worker with
      | .settling outcome => some { s with worker := .reporting outcome, settlements := s.settlements + 1 }
      | _ => none
  | .report =>
      match s.worker with
      | .reporting outcome =>
          if s.slot.decision = .handoffInProgress then none
          else some { s with slot := { s.slot with report := some outcome }, worker := .reported outcome }
      | _ => none
  | .retest =>
      match s.worker with
      | .reported outcome =>
          if s.slot.decision = .handoffInProgress then none else some (s.retested outcome)
      | _ => none
  | .release =>
      match s.worker with
      | .releasing outcome =>
          some { s with
            worker := .finished outcome
            promotedContinuations := s.promotedContinuations - 1
            decrements := s.decrements + 1 }
      | _ => none

end Attempt

/-! ## How the two threads and the slot agree -/

namespace Handler

/-- The decision that belongs to the handler's position. -/
def Agrees : Handler ρ ε → PipelineDecision → Prop
  | looking _, decision => decision = .waiting
  | promoting, decision => decision = .handoffInProgress
  | joining (.report _), decision | answered (.report _), decision
  | answered (.promotionFailed _), decision => decision = .handlerOwns
  | answered (.promotion _), decision => decision = .promotedByOwner
  | _, _ => False

theorem Agrees.promotion {h : Handler ρ ε} (hagrees : h.Agrees .promotedByOwner) :
    ∃ reply, h = .answered (.promotion reply) := by
  match h, hagrees with
  | answered (.promotion reply), _ => exact ⟨reply, rfl⟩

theorem Agrees.handoff {h : Handler ρ ε} (hagrees : h.Agrees .handoffInProgress) : h = .promoting := by
  match h, hagrees with
  | promoting, _ => rfl

@[simp] def rank : Handler ρ ε → Nat
  | looking false => 4
  | promoting => 3
  | looking true => 2
  | joining _ => 1
  | answered _ => 0

/-- The report the handler took out of the slot. -/
def taken : Handler ρ ε → Option (PipelineReport ρ ε)
  | joining (.report report) | answered (.report report) => some report
  | _ => none

end Handler

/-- The report the worker put into the slot. -/
def Worker.deposited : Worker ρ ε → Option (PipelineReport ρ ε)
  | reported outcome | releasing outcome | finished outcome => some outcome
  | _ => none

/-- What the worker carries past its test for an abandoned promotion. -/
def Worker.tested : Worker ρ ε → Option (PipelineReport ρ ε)
  | reporting outcome | reported outcome | releasing outcome | finished outcome => some outcome
  | _ => none

@[simp] def Worker.rank : Worker ρ ε → Nat
  | running => 6
  | ended _ => 5
  | settling _ => 4
  | reporting _ => 3
  | reported _ => 2
  | releasing _ => 1
  | finished _ => 0

theorem Worker.isFinished_of_deposited {w : Worker ρ ε} (h : w.deposited = none) : w.isFinished = false := by
  cases w with
  | finished => cases h
  | _ => rfl

namespace Attempt

variable {first : Int} {s s' : Attempt ρ ε τ} {move : Move ρ ε τ}

structure Consistent (first : Int) (s : Attempt ρ ε τ) : Prop where
  agrees : s.handler.Agrees s.slot.decision
  in_slot : s.handler.taken = none → s.slot.report = s.worker.deposited
  taken : ∀ report, s.handler.taken = some report → s.worker.deposited = some report
  promoting : s.handler = .promoting → s.worker.deposited = none
  begun : s.slot.begun = true →
    s.slot.decision ≠ .handoffInProgress ∧ s.slot.decision ≠ .promotedByOwner
  settling : ∀ outcome, s.worker = .settling outcome → s.slot.decision = .promotedByOwner
  releasing : ∀ outcome, s.worker = .releasing outcome → s.slot.decision = .promotedByOwner
  increments_eq : s.increments = if s.slot.decision = .promotedByOwner then 1 else 0
  decrements_eq : s.decrements
    = if s.slot.decision = .promotedByOwner ∧ s.worker.isFinished = true then 1 else 0
  count_eq : s.promotedContinuations = first + s.increments - s.decrements

theorem consistent_start : Consistent first (start first : Attempt ρ ε τ) := by
  refine ⟨rfl, fun _ => rfl, nofun, nofun, nofun, nofun, nofun, rfl, rfl, ?_⟩
  simp [start]

/-- What one step can do, with what it found. -/
inductive Steps (s : Attempt ρ ε τ) : Move ρ ε τ → Attempt ρ ε τ → Prop where
  | found {cutoffSettled cutoffPassed : Bool} {report : PipelineReport ρ ε}
      (hhandler : s.handler = .looking cutoffSettled) (hreport : s.slot.report = some report) :
      Steps s (.look cutoffPassed) { s with
        slot := { s.slot with report := none, decision := .handlerOwns }
        handler := .joining (if s.slot.decision = .promotedByOwner then .corrupt else .report report) }
  | died {cutoffSettled cutoffPassed : Bool} (hhandler : s.handler = .looking cutoffSettled)
      (hreport : s.slot.report = none) (hfinished : s.worker.isFinished = true) :
      Steps s (.look cutoffPassed) { s with handler := .joining .storeUnavailable }
  | idle {cutoffPassed : Bool} : Steps s (.look cutoffPassed) s
  | cutoff (hhandler : s.handler = .looking false) (hreport : s.slot.report = none)
      (hbegun : s.slot.begun = false) :
      Steps s (.look true) { s with
        slot := { s.slot with decision := .handoffInProgress }
        handler := .promoting }
  | stash {task : τ} (hhandler : s.handler = .promoting) :
      Steps s (.stash task) { s with slot := { s.slot with ownerMaterialized := some task } }
  | promote {promotion : Promotion ρ ε} (hhandler : s.handler = .promoting) :
      Steps s (.promote promotion) (s.promoted promotion)
  | join {answer : Answer ρ ε} {outcome : PipelineReport ρ ε} (hhandler : s.handler = .joining answer)
      (hworker : s.worker = .finished outcome) : Steps s .join { s with handler := .answered answer }
  | ask : Steps s .ask s
  | take : Steps s .take { s with slot := { s.slot with ownerMaterialized := none } }
  | claimed (hworker : s.worker = .running) (hdecision : s.slot.decision ≠ .handoffInProgress)
      (hpromoted : s.slot.decision ≠ .promotedByOwner) :
      Steps s .claim { s with slot := { s.slot with begun := true } }
  | overtaken : Steps s .claim { s with slot := { s.slot with ownerMaterialized := none } }
  | returns {outcome : PipelineReport ρ ε} (hworker : s.worker = .running) :
      Steps s (.returns outcome) { s with worker := .ended outcome }
  | settles {error : ε} (hworker : s.worker = .ended (.failed error))
      (hpromoted : s.slot.decision = .promotedByOwner) :
      Steps s .test { s with worker := .settling (.failed error) }
  | passes {outcome : PipelineReport ρ ε} (hworker : s.worker = .ended outcome)
      (houtcome : ∀ error, outcome = .failed error →
        s.slot.decision ≠ .handoffInProgress ∧ s.slot.decision ≠ .promotedByOwner) :
      Steps s .test { s with worker := .reporting outcome }
  | settled {outcome : PipelineReport ρ ε} (hworker : s.worker = .settling outcome) :
      Steps s .settle { s with worker := .reporting outcome, settlements := s.settlements + 1 }
  | report {outcome : PipelineReport ρ ε} (hworker : s.worker = .reporting outcome)
      (hdecision : s.slot.decision ≠ .handoffInProgress) :
      Steps s .report { s with
        slot := { s.slot with report := some outcome }
        worker := .reported outcome }
  | releases {outcome : PipelineReport ρ ε} (hworker : s.worker = .reported outcome)
      (hpromoted : s.slot.decision = .promotedByOwner) :
      Steps s .retest { s with worker := .releasing outcome }
  | leaves {outcome : PipelineReport ρ ε} (hworker : s.worker = .reported outcome)
      (hdecision : s.slot.decision ≠ .handoffInProgress)
      (hpromoted : s.slot.decision ≠ .promotedByOwner) :
      Steps s .retest { s with worker := .finished outcome }
  | release {outcome : PipelineReport ρ ε} (hworker : s.worker = .releasing outcome) :
      Steps s .release { s with
        worker := .finished outcome
        promotedContinuations := s.promotedContinuations - 1
        decrements := s.decrements + 1 }

theorem look_steps {cutoffSettled cutoffPassed : Bool} (hhandler : s.handler = .looking cutoffSettled) :
    Steps s (.look cutoffPassed) (s.look cutoffSettled cutoffPassed) := by
  unfold look
  split
  case h_1 report hreport => exact .found hhandler hreport
  case h_2 hreport =>
    split
    case isTrue hfinished => exact .died hhandler hreport hfinished
    case isFalse =>
      split
      case isTrue => exact .idle
      case isFalse hopen =>
        obtain ⟨-, hbegun, hsettled⟩ := not_or.mp hopen |>.imp_right not_or.mp
        cases cutoffPassed with
        | false => exact .idle
        | true =>
          rw [Bool.eq_false_iff.mpr hsettled] at hhandler
          exact .cutoff hhandler hreport (Bool.eq_false_iff.mpr hbegun)

theorem steps_of_step (h : s.step move = some s') : Steps s move s' := by
  cases move with (simp only [step] at h; split at h <;> try cases h)
  | look =>
    rename_i hhandler
    exact look_steps hhandler
  | stash => exact .stash ‹_›
  | promote => exact .promote ‹_›
  | join => exact .join ‹_› ‹_›
  | ask =>
    split at h <;> cases h
    exact .ask
  | take => exact .take
  | claim =>
    split at h <;> cases h
    unfold claim
    split
    · exact .overtaken
    · exact .claimed ‹_› ‹_› ‹_›
  | returns => exact .returns ‹_›
  | test =>
    rename_i hworker
    first
    | exact .passes hworker nofun
    | split at h <;> cases h
      unfold tested
      dsimp only
      split
      · exact .settles hworker ‹_›
      · exact .passes hworker fun _ _ => ⟨‹_›, ‹_›⟩
  | settle => exact .settled ‹_›
  | report =>
    split at h <;> cases h
    exact .report ‹_› ‹_›
  | retest =>
    split at h <;> cases h
    unfold retested
    split
    · exact .releases ‹_› ‹_›
    · exact .leaves ‹_› ‹_› ‹_›
  | release => exact .release ‹_›

namespace Consistent

/-- A worker that has finished has left a report, so a handler that still looks finds it. -/
theorem not_finished (h : s.Consistent first) {cutoffSettled : Bool}
    (hhandler : s.handler = .looking cutoffSettled) (hreport : s.slot.report = none) :
    s.worker.isFinished = false := by
  have hslot := h.in_slot (by rw [hhandler]; rfl)
  exact Worker.isFinished_of_deposited (hslot ▸ hreport)

theorem step (h : s.Consistent first) (hstep : s.step move = some s') : s'.Consistent first := by
  have hlooking := @h.not_finished
  have hpromoting := fun hhandler => Worker.isFinished_of_deposited (h.promoting hhandler)
  obtain ⟨h1, h2, h3, h4, h5, h6, h7, h8, h9, h10⟩ := h
  cases steps_of_step hstep with
  | died hhandler hreport hfinished => simp [hlooking hhandler hreport] at hfinished
  | idle | ask | stash | take | overtaken => exact ⟨h1, h2, h3, h4, h5, h6, h7, h8, h9, h10⟩
  | @promote promotion hhandler =>
    cases promotion <;> constructor <;>
      grind -ring -linarith -ac [Handler.Agrees, Handler.taken, Worker.deposited, promoted]
  | @join answer _ hhandler hworker =>
    cases answer <;> constructor <;>
      grind -ring -linarith -ac [Handler.Agrees, Handler.taken, Worker.deposited, Worker.isFinished]
  | _ =>
    constructor <;>
      grind -ring -linarith -ac [Handler.Agrees, Handler.taken, Worker.deposited, Worker.isFinished]

theorem of_runs {ok : Attempt ρ ε τ → Move ρ ε τ → Prop}
    (h : Runs Attempt.step ok (start first) s) : s.Consistent first :=
  h.invariant consistent_start fun _ _ _ hs _ hstep => hs.step hstep

/-- The worker's report is the only one an answer can carry, and the handler never takes a report
of a promoted attempt or finds a dead worker. -/
theorem answer (h : s.Consistent first) {answer : Answer ρ ε} (hhandler : s.handler = .answered answer) :
    (∃ report, answer = .report report ∧ s.worker.deposited = some report)
      ∨ (∃ reply, answer = .promotion reply) ∨ ∃ error, answer = .promotionFailed error := by
  have hagrees := h.agrees
  rw [hhandler] at hagrees
  cases answer with
  | report report => exact .inl ⟨report, rfl, h.taken report (by rw [hhandler]; rfl)⟩
  | promotion reply => exact .inr (.inl ⟨reply, rfl⟩)
  | promotionFailed error => exact .inr (.inr ⟨error, rfl⟩)
  | corrupt | storeUnavailable => cases hagrees

theorem promotedByOwner_iff (h : s.Consistent first) :
    s.slot.decision = .promotedByOwner ↔ ∃ reply, s.handler = .answered (.promotion reply) := by
  have hagrees := h.agrees
  constructor
  · intro hdecision
    rw [hdecision] at hagrees
    exact hagrees.promotion
  · rintro ⟨reply, hhandler⟩
    rwa [hhandler] at hagrees

theorem first_le (h : s.Consistent first) : first ≤ s.promotedContinuations := by
  have hle : s.decrements ≤ s.increments := by
    rw [h.decrements_eq, h.increments_eq]
    grind
  have hcount := h.count_eq
  omega

theorem released (h : s.Consistent first) (hworker : s.worker.isFinished = true) :
    s.decrements = s.increments ∧ s.promotedContinuations = first := by
  have heq : s.decrements = s.increments := by
    rw [h.decrements_eq, h.increments_eq]
    simp [hworker]
  have hcount := h.count_eq
  exact ⟨heq, by omega⟩

end Consistent

/-! ## The promotion that follows the worker's test -/

/-- The handler starts no promotion any more. -/
def CutoffClosed (s : Attempt ρ ε τ) : Prop :=
  s.slot.decision = .handlerOwns ∨ s.slot.begun = true ∨ s.handler = .looking true

/-- A worker with an error makes its test when the promotion is over or none can follow. -/
def TestsLast (s : Attempt ρ ε τ) (move : Move ρ ε τ) : Prop :=
  move = .test → ∀ error, s.worker = .ended (.failed error) →
    s.slot.decision = .promotedByOwner ∨ s.CutoffClosed

/-- Settlements as the worker's position and the decision give them. -/
structure Accounted (s : Attempt ρ ε τ) : Prop where
  untested : s.worker.tested = none → s.settlements = 0
  failed : ∀ error, s.worker.tested = some (.failed error) →
    (s.slot.decision = .promotedByOwner ∧ s.settlements = 1) ∨ s.CutoffClosed

theorem accounted_start : Accounted (start first : Attempt ρ ε τ) :=
  ⟨fun _ => rfl, nofun⟩

theorem Consistent.closed_step (h : s.Consistent first) (hstep : s.step move = some s')
    (hclosed : s.CutoffClosed) : s'.CutoffClosed := by
  have hagrees := h.agrees
  have hlooking := @h.not_finished
  cases steps_of_step hstep with
  | @promote promotion hhandler =>
    cases promotion <;> grind [CutoffClosed, Handler.Agrees, promoted]
  | _ => grind [CutoffClosed, Handler.Agrees]

theorem Accounted.step (h : s.Accounted) (hs : s.Consistent first)
    (hlast : s.TestsLast move) (hstep : s.step move = some s') : s'.Accounted := by
  have hclosed := hs.closed_step hstep
  have hagrees := hs.agrees
  have hsettling := hs.settling
  obtain ⟨huntested, hfailed⟩ := h
  cases steps_of_step hstep with
  | @promote promotion hhandler =>
    cases promotion <;> constructor <;> grind [Handler.Agrees, promoted]
  | _ => constructor <;> grind [Handler.Agrees, Worker.tested, TestsLast]

theorem Accounted.of_runs (h : Runs Attempt.step TestsLast (start first) s) : s.Accounted :=
  (h.invariant (I := fun t => t.Consistent first ∧ t.Accounted) ⟨consistent_start, accounted_start⟩
    fun _ _ _ ⟨hs, hsettled⟩ hlast hstep => ⟨hs.step hstep, hsettled.step hs hlast hstep⟩).2

/-- No promotion starts behind a worker that meets its condition, so it settles the one it has. -/
theorem Accounted.settlements_eq (h : s.Accounted) (hs : s.Consistent first) {reply : ρ} {error : ε}
    (hhandler : s.handler = .answered (.promotion reply)) (hworker : s.worker = .finished (.failed error)) :
    s.settlements = 1 := by
  have hpromoted := hs.promotedByOwner_iff.mpr ⟨reply, hhandler⟩
  rcases h.failed error (by rw [hworker]; rfl) with ⟨_, hone⟩ | howns | hbegun | hlooking
  · exact hone
  · simp [hpromoted] at howns
  · exact absurd hpromoted (hs.begun hbegun).2
  · simp [hhandler] at hlooking

/-! ## The attempt comes to its end -/

/-- How far the two threads are from their ends. -/
@[simp] def rank (s : Attempt ρ ε τ) : Nat := s.handler.rank + s.worker.rank

/-- The worker waits for the end of a promotion only. -/
theorem Consistent.worker_moves (h : s.Consistent first) (hpromoting : s.handler ≠ .promoting)
    (outcome : PipelineReport ρ ε) (hworker : s.worker.isFinished = false) :
    ∃ move s', s.step move = some s' ∧ s'.rank < s.rank := by
  have hfree : s.slot.decision ≠ .handoffInProgress := by
    intro hdecision
    have hagrees := h.agrees
    rw [hdecision] at hagrees
    exact hpromoting hagrees.handoff
  cases hw : s.worker with
  | running =>
    refine ⟨.returns outcome, _, by simp only [Attempt.step, hw]; rfl, ?_⟩
    simp [hw]
  | ended outcome =>
    refine ⟨.test, s.tested outcome, ?_, ?_⟩
    · cases outcome <;> simp only [Attempt.step, hw, if_neg hfree]
    · unfold Attempt.tested
      split
      · split <;> simp [hw]
      · simp [hw]
  | settling outcome =>
    refine ⟨.settle, _, by simp only [Attempt.step, hw]; rfl, ?_⟩
    simp [hw]
  | reporting outcome =>
    refine ⟨.report, _, by simp only [Attempt.step, hw, if_neg hfree]; rfl, ?_⟩
    simp [hw]
  | reported outcome =>
    refine ⟨.retest, s.retested outcome, by simp only [Attempt.step, hw, if_neg hfree], ?_⟩
    unfold retested
    split <;> simp [hw]
  | releasing outcome =>
    refine ⟨.release, _, by simp only [Attempt.step, hw]; rfl, ?_⟩
    simp [hw]
  | finished => simp [hw, Worker.isFinished] at hworker

/-- Behind a finished worker the handler finds its report, joins and answers. -/
theorem Consistent.handler_moves (h : s.Consistent first) (hworker : s.worker.isFinished = true)
    (hhandler : ∀ answer, s.handler ≠ .answered answer) :
    ∃ move s', s.step move = some s' ∧ s'.rank < s.rank := by
  cases hw : s.worker with
  | finished outcome =>
    cases hh : s.handler with
    | looking cutoffSettled =>
      have hreport : s.slot.report = some outcome := by
        rw [h.in_slot (by rw [hh]; rfl), hw]
        rfl
      refine ⟨.look true, s.look cutoffSettled true, by simp only [Attempt.step, hh], ?_⟩
      simp only [rank, look, hreport, hh, hw]
      cases cutoffSettled <;> simp
    | promoting =>
      have hnone := h.promoting hh
      rw [hw] at hnone
      cases hnone
    | joining answer =>
      refine ⟨.join, _, by simp only [Attempt.step, hh, hw]; rfl, ?_⟩
      simp [hh, hw]
    | answered answer => exact absurd hh (hhandler answer)
  | _ => simp [hw, Worker.isFinished] at hworker

/-- While one of the two threads is not at its end, one of them can come nearer to it, whatever
the pipeline returns. -/
theorem Consistent.exists_step (h : s.Consistent first) (outcome : PipelineReport ρ ε)
    (hends : ¬((∃ answer, s.handler = .answered answer) ∧ s.worker.isFinished = true)) :
    ∃ move s', s.step move = some s' ∧ s'.rank < s.rank := by
  by_cases hpromoting : s.handler = .promoting
  · refine ⟨.promote .ended, s.promoted .ended, by simp only [Attempt.step, hpromoting], ?_⟩
    simp [promoted, hpromoting]
  cases hworker : s.worker.isFinished with
  | false => exact h.worker_moves hpromoting outcome hworker
  | true => exact h.handler_moves hworker fun answer hanswer => hends ⟨⟨answer, hanswer⟩, hworker⟩

/-- From every state of an attempt the request can still be answered and the worker can finish. -/
theorem Consistent.ends (h : s.Consistent first) (outcome : PipelineReport ρ ε) :
    ∃ s', Runs Attempt.step (fun _ _ => True) s s'
      ∧ (∃ answer, s'.handler = .answered answer) ∧ s'.worker.isFinished = true := by
  induction hn : s.rank using Nat.strongRecOn generalizing s with
  | ind n ih =>
    by_cases hends : (∃ answer, s.handler = .answered answer) ∧ s.worker.isFinished = true
    · exact ⟨s, .refl, hends⟩
    · obtain ⟨move, t, hstep, hlt⟩ := h.exists_step outcome hends
      obtain ⟨s', hruns, hs'⟩ := ih t.rank (hn ▸ hlt) (h.step hstep) rfl
      exact ⟨s', .head ⟨move, trivial, hstep⟩ hruns, hs'⟩

/-- In every run in which a worker with an error makes its test after the promotion is over or when
none can follow, an answer is the worker's report or comes from the promotion and stays, a promoted
attempt whose worker ended in an error has been settled, and the counter is incremented and
decremented once for a promotion. -/
theorem promotion_kept_when_tested_last (h : Runs Attempt.step TestsLast (start first) s) :
    (∀ answer, s.handler = .answered answer →
      ((∃ report, answer = .report report ∧ s.worker.deposited = some report)
        ∨ (∃ reply, answer = .promotion reply) ∨ ∃ error, answer = .promotionFailed error)
      ∧ ∀ move s', s.step move = some s' → s'.handler = .answered answer)
    ∧ (∀ _ : PipelineReport ρ ε, ∃ s', Runs Attempt.step (fun _ _ => True) s s'
      ∧ (∃ answer, s'.handler = .answered answer) ∧ s'.worker.isFinished = true)
    ∧ (∀ reply error, s.handler = .answered (.promotion reply) → s.worker = .finished (.failed error) →
      s.settlements = 1)
    ∧ first ≤ s.promotedContinuations
    ∧ (∀ reply, s.handler = .answered (.promotion reply) → s.increments = 1)
    ∧ ((∀ reply, s.handler ≠ .answered (.promotion reply)) → s.increments = 0)
    ∧ (s.worker.isFinished = true → s.decrements = s.increments ∧ s.promotedContinuations = first) := by
  have hs : s.Consistent first := .of_runs h
  have hsettled : s.Accounted := .of_runs h
  refine ⟨fun answer hanswer => ⟨hs.answer hanswer, fun move s' hstep => ?_⟩,
    fun outcome => hs.ends outcome, fun reply error => hsettled.settlements_eq hs, hs.first_le,
    fun reply hhandler => ?_, fun hhandler => ?_, hs.released⟩
  · cases steps_of_step hstep <;> grind
  · rw [hs.increments_eq, if_pos (hs.promotedByOwner_iff.mpr ⟨reply, hhandler⟩)]
  · rw [hs.increments_eq, if_neg fun hpromoted => ?_]
    obtain ⟨reply, hreply⟩ := hs.promotedByOwner_iff.mp hpromoted
    exact hhandler reply hreply

end Attempt

end Machine

/-! ## Two interleavings of a failing worker -/

namespace Attempt

/-- The handler promotes first: the worker's test sees the promotion. -/
theorem promotion_kept_when_tested_last_run :
    ∃ s : Attempt Unit Unit Unit, Runs Attempt.step TestsLast (start 0) s
      ∧ s.handler = .answered (.promotion ()) ∧ s.worker = .finished (.failed ())
      ∧ s.settlements = 1 ∧ s.promotedContinuations = 0 := by
  have h : Runs Attempt.step TestsLast (start 0 : Attempt Unit Unit Unit) (start 0) := .refl
  have h := h.next (m := .look true) nofun rfl
  have h := h.next (m := .promote (.promoted ())) nofun rfl
  have h := h.next (m := .returns (.failed ())) nofun rfl
  have h := h.next (m := .test) (fun _ _ _ => .inl rfl) rfl
  have h := h.next (m := .settle) nofun rfl
  have h := h.next (m := .report) nofun rfl
  have h := h.next (m := .retest) nofun rfl
  have h := h.next (m := .release) nofun rfl
  obtain ⟨-, -, hsettled, -, -, -, hreleased⟩ := promotion_kept_when_tested_last h
  exact ⟨_, h, rfl, rfl, hsettled () () rfl rfl, (hreleased rfl).2⟩

/-- The worker tests first and the handler promotes before the report: the worker waits for the
promotion, reports, finds itself promoted and leaves. Nobody settles the promotion. -/
theorem promotion_after_test_abandoned :
    ∃ s : Attempt Unit Unit Unit, Runs Attempt.step (fun _ _ => True) (start 0) s
      ∧ s.handler = .answered (.promotion ()) ∧ s.worker = .finished (.failed ())
      ∧ s.settlements = 0 ∧ ∀ move, s.step move = none :=
  ⟨_, .of_replay (show replay step (start 0)
    [.returns (.failed ()), .test, .look true, .promote (.promoted ()), .report, .retest, .release] = some _ from rfl),
    rfl, rfl, rfl, fun move => by cases move <;> rfl⟩

end Attempt

end Unica.Runtime
