import Unica.Receipt.Types

/-!
# Joining an identical read

A read that repeats one already running gets a Task id of its own that leads to the
running Task. The registry remembers which running reads may be joined, who holds a
shared Task, which holders gave their interest up and what each of them was told last.
Every call takes the registry's lock for its whole length; the clock readings a call
makes are its arguments.
-/

namespace Unica.Runtime

open Lib Receipt

def maxJoinableLeaders : Nat := 256
def maxJoinedHolders : Nat := 1024

/-- Thirty seconds; instants and durations count nanoseconds. -/
def joinWindow : Nat := 30000000000

def toolIsJoinable : V5ToolIdentity → Bool
  | .view | .resolve | .search | .check | .diff | .docs => true
  | .apply | .run => false

structure RequestIdentity where
  coreIdentityDigest : Nat
  tool : V5ToolIdentity
  normalizedArgumentsHash : Nat
  requestScopeHash : Nat
  deriving DecidableEq

def requestIdentity (key : ReceiptKey) : RequestIdentity :=
  ⟨key.coreIdentityDigest, key.tool, key.normalizedArgumentsHash, key.requestScopeHash⟩

structure InvocationResponseDeadline where
  receiptAt : Nat
  handoffAt : Nat
  responseAt : Nat
  deriving DecidableEq

/-- The identity under which one holder sees the shared Task. -/
structure JoinHolder where
  taskId : TaskId
  invocationId : InvocationId
  receiptKeyDigest : ReceiptKeyDigest
  deriving DecidableEq

def JoinHolder.of [ReceiptCodec] (key : ReceiptKey) : JoinHolder :=
  ⟨key.reservedTaskId, key.invocationId, ReceiptCodec.receiptKeyDigest key⟩

structure JoinCandidate where
  taskId : TaskId
  inFlight : Bool
  leaderDeadline : InvocationResponseDeadline
  startedWall : Nat
  deriving DecidableEq

inductive HolderTerminalView where
  | shared
  | cancelled (atEpochMs : EpochMs)
  deriving DecidableEq

structure JoinAlias where
  leader : TaskId
  holder : JoinHolder
  cancelledAtEpochMs : Option EpochMs
  generation : Nat
  terminalView : Option HolderTerminalView
  deriving DecidableEq

/-- Captured before the canonical Task is read. -/
structure HolderReadContext where
  leader : TaskId
  holder : JoinHolder
  canonicalHolder : JoinHolder
  generation : Nat
  requestedAt : Option EpochMs
  deriving DecidableEq

/-- Two contexts of one membership; the cancel request may differ. -/
def HolderReadContext.sameMembership (current read : HolderReadContext) : Prop :=
  current.leader = read.leader ∧ current.holder = read.holder
    ∧ current.canonicalHolder = read.canonicalHolder ∧ current.generation = read.generation

instance (current read : HolderReadContext) : Decidable (current.sameMembership read) :=
  inferInstanceAs (Decidable (_ ∧ _))

inductive HolderProjection where
  | shared
  | cancelled (atEpochMs : EpochMs)
  | reload
  | retired
  deriving DecidableEq

structure HolderReplyContext where
  taskId : TaskId
  read : Option HolderReadContext
  revision : Option Nat
  deriving DecidableEq

inductive HolderReplyProjection where
  | unchanged | normalize | retired
  deriving DecidableEq

inductive HolderCancel where
  | released
  | cancelShared (leader : TaskId)
  deriving DecidableEq

structure Leader where
  taskId : TaskId
  holder : JoinHolder
  inFlight : Bool
  deadline : InvocationResponseDeadline
  startedAt : Nat
  startedWall : Nat
  order : Nat
  deriving DecidableEq

def Leader.withinJoinWindow (leader : Leader) (now : Nat) : Prop := now - leader.startedAt < joinWindow

instance (leader : Leader) (now : Nat) : Decidable (leader.withinJoinWindow now) :=
  inferInstanceAs (Decidable (_ < _))

/-- `cancelIssued`: the shared work has been cancelled and takes no more joiners. -/
structure SharedWork where
  holder : JoinHolder
  generation : Nat
  terminalView : Option HolderTerminalView
  leaderReleasedAtEpochMs : Option EpochMs
  cancelIssued : Bool
  joiners : List TaskId
  deriving DecidableEq

structure JoinState where
  joinable : Table RequestIdentity Leader := ∅
  nextOrder : Nat := 0
  shared : Table TaskId SharedWork := ∅
  aliases : Table TaskId JoinAlias := ∅
  mutations : Finset TaskId := ∅
  mutationEpoch : Nat := 0
  membershipRevision : Nat := 0
  membershipOverflowed : Bool := false

namespace JoinState

def membershipChanged (s : JoinState) : JoinState :=
  match checkedAdd wordBound s.membershipRevision 1 with
  | some next => { s with membershipRevision := next }
  | none => { s with membershipOverflowed := true }

def revision (s : JoinState) : Option Nat :=
  if s.membershipOverflowed then none else some s.membershipRevision

def forgetLeaderTask (s : JoinState) (taskId : TaskId) : JoinState :=
  { s with joinable := Table.retain (fun _ leader => leader.taskId ≠ taskId) s.joinable }

def forgetSharedLocked (s : JoinState) (leader : TaskId) : JoinState :=
  let s := match s.shared.lookup leader with
    | some work =>
        membershipChanged { s with
          shared := s.shared.erase leader
          aliases := Table.eraseAll work.joiners s.aliases }
    | none => s
  s.forgetLeaderTask leader

/-- Orders are never given twice, so one leader is forgotten. -/
def forgetOldest (joinable : Table RequestIdentity Leader) : Table RequestIdentity Leader :=
  Table.retain (fun _ leader => joinable.existsValue fun _ other => other.order < leader.order) joinable

def registerLeader [ReceiptCodec] (s : JoinState) (key : ReceiptKey)
    (deadline : InvocationResponseDeadline) (now startedWall observedEpoch : Nat) : Bool × JoinState :=
  if ¬toolIsJoinable key.tool then (false, s)
  else if s.mutationEpoch ≠ observedEpoch ∨ s.mutations ≠ ∅ then (false, s)
  else
    match checkedAdd wordBound s.nextOrder 1 with
    | none => (false, s)
    | some nextOrder =>
        let order := s.nextOrder
        let s := s.forgetSharedLocked key.reservedTaskId
        let joinable := s.joinable.insert (requestIdentity key)
          { taskId := key.reservedTaskId
            holder := .of key
            inFlight := true
            deadline
            startedAt := now
            startedWall
            order }
        let joinable := if maxJoinableLeaders < Table.size joinable then forgetOldest joinable else joinable
        (true, { s with nextOrder, joinable })

def leaderSettled (s : JoinState) (taskId : TaskId) : JoinState :=
  let settle (leader : Leader) := if leader.taskId = taskId then { leader with inFlight := false } else leader
  { s with joinable := s.joinable.mapValues settle }

def closeJoins (s : JoinState) : JoinState :=
  { s with joinable := ∅, mutationEpoch := wrappingAdd wordBound s.mutationEpoch 1 }

def trackMutation (s : JoinState) (taskId : TaskId) : JoinState :=
  { s with
    joinable := ∅
    mutationEpoch := wrappingAdd wordBound s.mutationEpoch 1
    mutations := insert taskId s.mutations }

def mutationFinished (s : JoinState) (taskId : TaskId) : JoinState :=
  { s with mutations := s.mutations.erase taskId }

/-- Past its window a leader is forgotten here. -/
def candidate (s : JoinState) (identity : RequestIdentity) (now : Nat) : Option JoinCandidate × JoinState :=
  match s.joinable.lookup identity with
  | some leader =>
      if leader.withinJoinWindow now then
        (some ⟨leader.taskId, leader.inFlight, leader.deadline, leader.startedWall⟩, s)
      else (none, { s with joinable := s.joinable.erase identity })
  | none => (none, s)

def forgetLeader (s : JoinState) (identity : RequestIdentity) (taskId : TaskId) : JoinState :=
  match s.joinable.lookup identity with
  | some leader => if leader.taskId = taskId then { s with joinable := s.joinable.erase identity } else s
  | none => s

/-- `None`: the call runs on its own. -/
def attach [ReceiptCodec] (s : JoinState) (identity : RequestIdentity) (leader : TaskId)
    (joiner : ReceiptKey) (now : Nat) : Option JoinAlias × JoinState :=
  let holder := JoinHolder.of joiner
  match s.joinable.lookup identity with
  | none => (none, s)
  | some candidate =>
      if holder.taskId = leader ∨ s.membershipOverflowed = true ∨ maxJoinedHolders ≤ Table.size s.aliases
          ∨ s.aliases.lookup holder.taskId ≠ none ∨ s.shared.lookup holder.taskId ≠ none
          ∨ ¬(candidate.taskId = leader ∧ candidate.withinJoinWindow now)
          ∨ (s.shared.lookup leader).any (·.cancelIssued) = true then (none, s)
      else
        let joined : JoinAlias :=
          { leader, holder, cancelledAtEpochMs := none, generation := candidate.order, terminalView := none }
        let work := (s.shared.lookup leader).getD
          { holder := candidate.holder
            generation := candidate.order
            terminalView := none
            leaderReleasedAtEpochMs := none
            cancelIssued := false
            joiners := [] }
        (some joined, membershipChanged { s with
          shared := s.shared.insert leader { work with joiners := work.joiners ++ [holder.taskId] }
          aliases := s.aliases.insert holder.taskId joined })

def context (s : JoinState) (taskId : TaskId) : Option HolderReadContext :=
  match s.aliases.lookup taskId with
  | some joined =>
      (s.shared.lookup joined.leader).map fun work =>
        ⟨joined.leader, joined.holder, work.holder, joined.generation, joined.cancelledAtEpochMs⟩
  | none =>
      (s.shared.lookup taskId).map fun work =>
        ⟨taskId, work.holder, work.holder, work.generation, work.leaderReleasedAtEpochMs⟩

def captureReply (s : JoinState) (taskId : TaskId) : HolderReplyContext :=
  ⟨taskId, s.context taskId, s.revision⟩

def replyProjection (s : JoinState) (before : HolderReplyContext) : HolderReplyProjection :=
  let current := s.context before.taskId
  let retired := before.read.any fun old => !current.any fun read => decide (read.sameMembership old)
  if retired then .retired
  else if before.read ≠ none ∨ current ≠ none ∨ before.revision = none ∨ before.revision ≠ s.revision then
    .normalize
  else .unchanged

/-- What the holder was told last. -/
def terminalView (s : JoinState) (taskId : TaskId) : Option HolderTerminalView :=
  match s.aliases.lookup taskId with
  | some joined => joined.terminalView
  | none => (s.shared.lookup taskId).bind (·.terminalView)

def setTerminalView (s : JoinState) (taskId : TaskId) (view : HolderTerminalView) : JoinState :=
  match s.aliases.lookup taskId with
  | some joined => { s with aliases := s.aliases.insert taskId { joined with terminalView := some view } }
  | none =>
      match s.shared.lookup taskId with
      | some work => { s with shared := s.shared.insert taskId { work with terminalView := some view } }
      | none => s

/-- The only owner of a holder's terminal decision. -/
def projectHolder (s : JoinState) (captured : HolderReplyContext) (sharedTerminal : Bool) :
    HolderProjection × JoinState :=
  match s.context captured.taskId, captured.read with
  | none, some _ => (.retired, s)
  | none, none => (if captured.revision ≠ s.revision then .reload else .shared, s)
  | some _, none => (.reload, s)
  | some current, some read =>
      if ¬current.sameMembership read then (.retired, s)
      else
        match s.terminalView captured.taskId with
        | some (.cancelled atEpochMs) => (.cancelled atEpochMs, s)
        | some .shared => (if sharedTerminal then .shared else .reload, s)
        | none =>
            if sharedTerminal then (.shared, s.setTerminalView captured.taskId .shared)
            else if current.requestedAt ≠ read.requestedAt then (.reload, s)
            else
              match current.requestedAt with
              | some atEpochMs =>
                  (.cancelled atEpochMs, s.setTerminalView captured.taskId (.cancelled atEpochMs))
              | none => (.shared, s)

/-- The second half of a cancel: cancel the work when nobody waits for it any more. -/
def cancelIfReleased (s : JoinState) (leader : TaskId) : HolderCancel × JoinState :=
  match s.shared.lookup leader with
  | none => (.released, s)
  | some work =>
      let everyoneReleased := work.leaderReleasedAtEpochMs.isSome
        && work.joiners.all fun joiner => (s.aliases.lookup joiner).all (·.cancelledAtEpochMs.isSome)
      if ¬everyoneReleased ∨ work.cancelIssued then (.released, s)
      else
        let s := { s with shared := s.shared.insert leader { work with cancelIssued := true } }
        (.cancelShared leader, s.forgetLeaderTask leader)

def cancelHolder (s : JoinState) (taskId : TaskId) (epochMs : EpochMs) : HolderCancel × JoinState :=
  match s.aliases.lookup taskId with
  | some joined =>
      let released := { joined with cancelledAtEpochMs := joined.cancelledAtEpochMs.or (some epochMs) }
      cancelIfReleased { s with aliases := s.aliases.insert taskId released } joined.leader
  | none =>
      match s.shared.lookup taskId with
      | none => (.cancelShared taskId, s.forgetLeaderTask taskId)
      | some work =>
          let released := { work with leaderReleasedAtEpochMs := work.leaderReleasedAtEpochMs.or (some epochMs) }
          cancelIfReleased { s with shared := s.shared.insert taskId released } taskId

def cancelHolderInContext (s : JoinState) (read : HolderReadContext) (epochMs : EpochMs) :
    Option HolderCancel × JoinState :=
  match s.context read.holder.taskId with
  | none => (none, s)
  | some current =>
      if ¬current.sameMembership read then (none, s)
      else
        let (cancel, s) := s.cancelHolder read.holder.taskId epochMs
        (some cancel, s)

def forgetShared (s : JoinState) (leader : TaskId) : JoinState := s.forgetSharedLocked leader

def forgetMissingContext (s : JoinState) (read : HolderReadContext) : JoinState :=
  match s.context read.holder.taskId with
  | none => s
  | some current => if current.sameMembership read then s.forgetSharedLocked read.leader else s

end JoinState

end Unica.Runtime
