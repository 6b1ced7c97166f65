import Unica.Runtime.Joining

/-!
# Runs of the join registry

A registration gives its leader an order that no other registration gets. The order is the
generation of every membership that follows: the leader's own and those of the calls that
join it. A generation is alive while its leader can be joined or holds shared work, and
once it is over it does not come back.
-/

namespace Unica.Runtime

open Lib Receipt Table Option List Finmap

/-- The calls that change the registry. -/
inductive Call where
  | registerLeader (key : ReceiptKey) (deadline : InvocationResponseDeadline)
      (now startedWall observedEpoch : Nat)
  | leaderSettled (taskId : TaskId)
  | closeJoins
  | trackMutation (taskId : TaskId)
  | mutationFinished (taskId : TaskId)
  | candidate (identity : RequestIdentity) (now : Nat)
  | forgetLeader (identity : RequestIdentity) (taskId : TaskId)
  | attach (identity : RequestIdentity) (leader : TaskId) (joiner : ReceiptKey) (now : Nat)
  | projectHolder (captured : HolderReplyContext) (sharedTerminal : Bool)
  | cancelHolder (taskId : TaskId) (epochMs : EpochMs)
  | cancelHolderInContext (read : HolderReadContext) (epochMs : EpochMs)
  | forgetShared (leader : TaskId)
  | forgetMissingContext (read : HolderReadContext)

section Histories

variable [ReceiptCodec]

def Call.apply (s : JoinState) : Call → JoinState
  | registerLeader key deadline now startedWall observedEpoch =>
      (s.registerLeader key deadline now startedWall observedEpoch).2
  | leaderSettled taskId => s.leaderSettled taskId
  | closeJoins => s.closeJoins
  | trackMutation taskId => s.trackMutation taskId
  | mutationFinished taskId => s.mutationFinished taskId
  | candidate identity now => (s.candidate identity now).2
  | forgetLeader identity taskId => s.forgetLeader identity taskId
  | attach identity leader joiner now => (s.attach identity leader joiner now).2
  | projectHolder captured sharedTerminal => (s.projectHolder captured sharedTerminal).2
  | cancelHolder taskId epochMs => (s.cancelHolder taskId epochMs).2
  | cancelHolderInContext read epochMs => (s.cancelHolderInContext read epochMs).2
  | forgetShared leader => s.forgetShared leader
  | forgetMissingContext read => s.forgetMissingContext read

/-- What a call may do beyond forgetting: record the cancel of one holder, or register a leader. -/
structure Effect where
  cancels : Option TaskId := none
  registers : Bool := false

def Call.effect (s : JoinState) : Call → Effect
  | registerLeader key deadline now startedWall observedEpoch =>
      { registers := (s.registerLeader key deadline now startedWall observedEpoch).1 }
  | cancelHolder taskId _ => { cancels := some taskId }
  | cancelHolderInContext read epochMs =>
      { cancels := (s.cancelHolderInContext read epochMs).1.map fun _ => read.holder.taskId }
  | _ => {}

/-- The registry after a history of calls, the newest first. -/
def after : List Call → JoinState
  | [] => {}
  | call :: earlier => call.apply (after earlier)

/-- The call is a registration that succeeds. -/
def Call.Registers (s : JoinState) (call : Call) (key : ReceiptKey) (observedEpoch : Nat) : Prop :=
  ∃ deadline now startedWall, call = registerLeader key deadline now startedWall observedEpoch
    ∧ (s.registerLeader key deadline now startedWall observedEpoch).1 = true

end Histories

/-- The calls that close all joins. -/
def Call.isMutation : Call → Bool
  | closeJoins | trackMutation _ => true
  | _ => false

/-! ## What a call can do to the tables -/

/-- The same membership later: what it was told and when it was cancelled stay. -/
structure JoinAlias.Grows (a a' : JoinAlias) : Prop where
  leader : a'.leader = a.leader
  holder : a'.holder = a.holder
  generation : a'.generation = a.generation
  terminalView : ∀ view, a.terminalView = some view → a'.terminalView = some view
  cancelledAt : ∀ epochMs, a.cancelledAtEpochMs = some epochMs → a'.cancelledAtEpochMs = some epochMs

structure SharedWork.Grows (w w' : SharedWork) : Prop where
  holder : w'.holder = w.holder
  generation : w'.generation = w.generation
  terminalView : ∀ view, w.terminalView = some view → w'.terminalView = some view
  releasedAt : ∀ epochMs, w.leaderReleasedAtEpochMs = some epochMs →
    w'.leaderReleasedAtEpochMs = some epochMs
  cancelIssued : w.cancelIssued = true → w'.cancelIssued = true

theorem JoinAlias.Grows.refl (a : JoinAlias) : a.Grows a := ⟨rfl, rfl, rfl, fun _ h => h, fun _ h => h⟩

theorem SharedWork.Grows.refl (w : SharedWork) : w.Grows w :=
  ⟨rfl, rfl, fun _ h => h, fun _ h => h, fun h => h⟩

theorem JoinAlias.Grows.trans {a a' a'' : JoinAlias} (h : a.Grows a') (h' : a'.Grows a'') : a.Grows a'' :=
  ⟨h'.leader.trans h.leader, h'.holder.trans h.holder, h'.generation.trans h.generation,
    fun view hview => h'.terminalView view (h.terminalView view hview),
    fun t ht => h'.cancelledAt t (h.cancelledAt t ht)⟩

theorem SharedWork.Grows.trans {w w' w'' : SharedWork} (h : w.Grows w') (h' : w'.Grows w'') : w.Grows w'' :=
  ⟨h'.holder.trans h.holder, h'.generation.trans h.generation,
    fun view hview => h'.terminalView view (h.terminalView view hview),
    fun t ht => h'.releasedAt t (h.releasedAt t ht), fun hissued => h'.cancelIssued (h.cancelIssued hissued)⟩

/-- No leader is added, and those left are the same but for `inFlight`. -/
def Fewer (joinable' joinable : Table RequestIdentity Leader) : Prop :=
  ∀ identity leader', joinable'.lookup identity = some leader' → ∃ leader,
    joinable.lookup identity = some leader ∧ leader'.taskId = leader.taskId
      ∧ leader'.holder = leader.holder ∧ leader'.order = leader.order

theorem Fewer.refl (joinable : Table RequestIdentity Leader) : Fewer joinable joinable :=
  fun _ leader h => ⟨leader, h, rfl, rfl, rfl⟩

theorem Fewer.of_lookup {joinable' joinable : Table RequestIdentity Leader}
    (h : ∀ identity leader, joinable'.lookup identity = some leader → joinable.lookup identity = some leader) :
    Fewer joinable' joinable :=
  fun identity leader hleader => ⟨leader, h identity leader hleader, rfl, rfl, rfl⟩

variable {joinable : Table RequestIdentity Leader}

theorem Fewer.retain {p : RequestIdentity → Leader → Bool} : Fewer (retain p joinable) joinable :=
  .of_lookup fun _ _ h => (lookup_retain.mp h).1

theorem Fewer.erase {identity : RequestIdentity} : Fewer (joinable.erase identity) joinable :=
  .of_lookup fun _ _ h => by grind

namespace JoinState

/-- One change of the tables. Every call is made of these. -/
inductive Change (e : Effect) (s : JoinState) : JoinState → Prop where
  | rest {s' : JoinState} (hjoinable : Fewer s'.joinable s.joinable) (hshared : s'.shared = s.shared)
      (haliases : s'.aliases = s.aliases) (horder : s'.nextOrder = s.nextOrder) : Change e s s'
  | forget {s' : JoinState} {leader : TaskId} {work : SharedWork} (hquiet : e.cancels = none)
      (hwork : s.shared.lookup leader = some work) (hjoinable : Fewer s'.joinable s.joinable)
      (hgone : ∀ identity other, s'.joinable.lookup identity = some other → other.taskId ≠ leader)
      (hshared : s'.shared = s.shared.erase leader)
      (haliases : s'.aliases = eraseAll work.joiners s.aliases)
      (horder : s'.nextOrder = s.nextOrder) : Change e s s'
  | register {s' : JoinState} {identity : RequestIdentity} {leader : Leader} (heffect : e.registers = true)
      (hkey : leader.holder.taskId = leader.taskId) (hnew : leader.order = s.nextOrder)
      (hunshared : s.shared.lookup leader.taskId = none)
      (hunjoined : ∀ other leader', s.joinable.lookup other = some leader' → leader'.taskId ≠ leader.taskId)
      (hjoinable : s'.joinable = s.joinable.insert identity leader) (hshared : s'.shared = s.shared)
      (haliases : s'.aliases = s.aliases) (horder : s'.nextOrder = s.nextOrder + 1) : Change e s s'
  | attach {s' : JoinState} {identity : RequestIdentity} {candidate : Leader} (joined : JoinAlias)
      (work : SharedWork) (hquiet : e.cancels = none) (hcandidate : s.joinable.lookup identity = some candidate)
      (hself : joined.holder.taskId ≠ candidate.taskId)
      (halias : s.aliases.lookup joined.holder.taskId = none)
      (hshare : s.shared.lookup joined.holder.taskId = none)
      (hleader : joined.leader = candidate.taskId) (hgeneration : joined.generation = candidate.order)
      (huncancelled : joined.cancelledAtEpochMs = none)
      (hwork : s.shared.lookup candidate.taskId = some work
        ∨ s.shared.lookup candidate.taskId = none ∧ work.generation = candidate.order
          ∧ work.holder = candidate.holder ∧ work.joiners = [] ∧ work.leaderReleasedAtEpochMs = none)
      (hjoinable : s'.joinable = s.joinable)
      (hshared : s'.shared = s.shared.insert candidate.taskId
        { work with joiners := work.joiners ++ [joined.holder.taskId] })
      (haliases : s'.aliases = s.aliases.insert joined.holder.taskId joined)
      (horder : s'.nextOrder = s.nextOrder) : Change e s s'
  | growAlias {s' : JoinState} {taskId : TaskId} {joined : JoinAlias} (joined' : JoinAlias)
      (hjoined : s.aliases.lookup taskId = some joined) (hgrows : joined.Grows joined')
      (hcancel : joined'.cancelledAtEpochMs = joined.cancelledAtEpochMs ∨ e.cancels = some taskId)
      (hjoinable : s'.joinable = s.joinable) (hshared : s'.shared = s.shared)
      (haliases : s'.aliases = s.aliases.insert taskId joined') (horder : s'.nextOrder = s.nextOrder) :
      Change e s s'
  | growWork {s' : JoinState} {leader : TaskId} {work : SharedWork} (work' : SharedWork)
      (hwork : s.shared.lookup leader = some work) (hgrows : work.Grows work')
      (hcancel : work'.leaderReleasedAtEpochMs = work.leaderReleasedAtEpochMs
        ∨ e.cancels = some leader ∧ s.aliases.lookup leader = none)
      (hjoiners : work'.joiners = work.joiners) (hjoinable : s'.joinable = s.joinable)
      (hshared : s'.shared = s.shared.insert leader work') (haliases : s'.aliases = s.aliases)
      (horder : s'.nextOrder = s.nextOrder) : Change e s s'

structure JoinableFits (joinable : Table RequestIdentity Leader) (nextOrder : Nat) : Prop where
  order_lt : ∀ {identity leader}, joinable.lookup identity = some leader → leader.order < nextOrder
  holder_eq : ∀ {identity leader}, joinable.lookup identity = some leader → leader.holder.taskId = leader.taskId
  unique : ∀ {identity identity' leader leader'}, joinable.lookup identity = some leader →
    joinable.lookup identity' = some leader' →
    leader.taskId = leader'.taskId ∨ leader.order = leader'.order → identity = identity'

structure SharedFits (joinable : Table RequestIdentity Leader) (shared : Table TaskId SharedWork)
    (nextOrder : Nat) : Prop where
  order_lt : ∀ {leader work}, shared.lookup leader = some work → work.generation < nextOrder
  holder_eq : ∀ {leader work}, shared.lookup leader = some work → work.holder.taskId = leader
  joinable_iff : ∀ {leader work identity candidate}, shared.lookup leader = some work →
    joinable.lookup identity = some candidate → (candidate.taskId = leader ↔ candidate.order = work.generation)
  unique : ∀ {leader leader' work work'}, shared.lookup leader = some work →
    shared.lookup leader' = some work' → work.generation = work'.generation → leader = leader'

/-- Aliases and the joiners of shared work are inverse to each other. -/
structure AliasesFit (shared : Table TaskId SharedWork) (aliases : Table TaskId JoinAlias) : Prop where
  aliased : ∀ {taskId joined}, aliases.lookup taskId = some joined → ∃ work,
    shared.lookup joined.leader = some work ∧ taskId ∈ work.joiners ∧ joined.generation = work.generation
  joined : ∀ {leader work taskId}, shared.lookup leader = some work → taskId ∈ work.joiners →
    ∃ joined, aliases.lookup taskId = some joined ∧ joined.leader = leader
  nodup : ∀ {leader work}, shared.lookup leader = some work → work.joiners.Nodup ∧ work.joiners ≠ []
  holder_eq : ∀ {taskId joined}, aliases.lookup taskId = some joined →
    joined.holder.taskId = taskId ∧ joined.leader ≠ taskId

/-- How the three tables agree. -/
structure Coherent (s : JoinState) : Prop where
  joinable : JoinableFits s.joinable s.nextOrder
  shared : SharedFits s.joinable s.shared s.nextOrder
  aliases : AliasesFit s.shared s.aliases

theorem coherent_empty : Coherent {} := by
  refine ⟨?_, ?_, ?_⟩ <;> constructor <;> simp

variable {e : Effect} {s s' : JoinState}
variable {joinable joinable' : Table RequestIdentity Leader} {deadline : InvocationResponseDeadline}
  {taskId : TaskId}

theorem JoinableFits.fewer {nextOrder : Nat}
    (h : JoinableFits joinable nextOrder) (hfewer : Fewer joinable' joinable) :
    JoinableFits joinable' nextOrder := by
  obtain ⟨horder, hholder, hunique⟩ := h
  constructor <;> grind [Fewer]

theorem SharedFits.fewer {nextOrder : Nat}
    {shared : Table TaskId SharedWork} (h : SharedFits joinable shared nextOrder)
    (hfewer : Fewer joinable' joinable) : SharedFits joinable' shared nextOrder := by
  refine ⟨h.order_lt, h.holder_eq, ?_, h.unique⟩
  intro leader work identity candidate' hwork hcandidate'
  obtain ⟨candidate, hcandidate, htask, -, horder⟩ := hfewer identity candidate' hcandidate'
  rw [htask, horder]
  exact h.joinable_iff hwork hcandidate

theorem Coherent.change (h : s.Coherent) (hchange : Change e s s') : s'.Coherent := by
  obtain ⟨hj, hs, ha⟩ := h
  cases hchange with
  | rest hjoinable hshared haliases horder =>
    refine ⟨horder ▸ hj.fewer hjoinable, ?_, ?_⟩
    · rw [hshared, horder]
      exact hs.fewer hjoinable
    · rw [hshared, haliases]
      exact ha
  | forget _ hwork hjoinable hgone hshared haliases horder =>
    refine ⟨horder ▸ hj.fewer hjoinable, ?_, ?_⟩
    · rw [horder]
      have hfewer := hs.fewer hjoinable
      constructor <;> grind [SharedFits]
    · rw [hshared]
      obtain ⟨h1, h2, h3, h4⟩ := ha
      constructor <;> grind
  | register _ hkey hnew hunshared hunjoined hjoinable hshared haliases horder =>
    refine ⟨?_, ?_, ?_⟩
    · rw [horder]
      obtain ⟨h1, h2, h3⟩ := hj
      constructor <;> grind
    · rw [hshared]
      obtain ⟨h1, h2, h3, h4⟩ := hs
      constructor <;> grind
    · rw [hshared, haliases]
      exact ha
  | attach joined work _ hcandidate hself halias hshare hleader hgeneration _ hwork hjoinable hshared haliases horder =>
    refine ⟨hjoinable ▸ horder ▸ hj, ?_, ?_⟩
    · rw [hshared]
      obtain ⟨h1, h2, h3⟩ := hj
      obtain ⟨h4, h5, h6, h7⟩ := hs
      constructor <;> grind
    · rw [hshared]
      have hfits := @hs.joinable_iff
      obtain ⟨h1, h2, h3, h4⟩ := ha
      constructor <;> grind
  | growAlias joined' hjoined hgrows _ hjoinable hshared haliases horder =>
    refine ⟨hjoinable ▸ horder ▸ hj, ?_, ?_⟩
    · rw [hjoinable, hshared, horder]
      exact hs
    · rw [hshared]
      obtain ⟨hleader, hholder, hgeneration, -, -⟩ := hgrows
      obtain ⟨h1, h2, h3, h4⟩ := ha
      constructor <;> grind
  | growWork work' hwork hgrows _ hjoiners hjoinable hshared haliases horder =>
    obtain ⟨hholder, hgeneration, -, -, -⟩ := hgrows
    refine ⟨hjoinable ▸ horder ▸ hj, ?_, ?_⟩
    · rw [hshared]
      obtain ⟨h1, h2, h3, h4⟩ := hs
      constructor <;> grind
    · rw [hshared]
      obtain ⟨h1, h2, h3, h4⟩ := ha
      constructor <;> grind

/-- Any number of changes. -/
abbrev Changes (e : Effect) : JoinState → JoinState → Prop := Relation.ReflTransGen (Change e)

theorem Coherent.changes (h : s.Coherent) (hchanges : Changes e s s') : s'.Coherent := by
  induction hchanges with
  | refl => exact h
  | tail _ hchange ih => exact ih.change hchange

section Functions

variable {leader taskId : TaskId} {identity : RequestIdentity} {now epochMs : Nat}

@[simp] theorem membershipChanged_joinable : s.membershipChanged.joinable = s.joinable := by
  unfold membershipChanged
  split <;> rfl

@[simp] theorem membershipChanged_shared : s.membershipChanged.shared = s.shared := by
  unfold membershipChanged
  split <;> rfl

@[simp] theorem membershipChanged_aliases : s.membershipChanged.aliases = s.aliases := by
  unfold membershipChanged
  split <;> rfl

@[simp] theorem membershipChanged_nextOrder : s.membershipChanged.nextOrder = s.nextOrder := by
  unfold membershipChanged
  split <;> rfl

theorem forgetLeaderTask_change : Change e s (s.forgetLeaderTask taskId) :=
  .rest .retain rfl rfl rfl

theorem forgetLeaderTask_gone {other : Leader}
    (h : (s.forgetLeaderTask taskId).joinable.lookup identity = some other) : other.taskId ≠ taskId := by
  have hkept := (lookup_retain.mp h).2
  simpa using hkept

theorem forgetSharedLocked_change (hquiet : e.cancels = none) : Change e s (s.forgetSharedLocked leader) := by
  unfold forgetSharedLocked
  cases hwork : s.shared.lookup leader with
  | none => exact forgetLeaderTask_change
  | some work =>
    refine .forget hquiet hwork ?_ (fun identity other h => forgetLeaderTask_gone h) ?_ ?_ ?_
    · simp only [forgetLeaderTask, membershipChanged_joinable]
      exact .retain
    · simp [forgetLeaderTask]
    · simp [forgetLeaderTask]
    · simp [forgetLeaderTask]

theorem forgetSharedLocked_shared : (s.forgetSharedLocked leader).shared = s.shared.erase leader := by
  unfold forgetSharedLocked
  cases hwork : s.shared.lookup leader with
  | none =>
    refine ext_lookup fun other => ?_
    show s.shared.lookup other = _
    grind
  | some work => simp [forgetLeaderTask]

@[simp] theorem forgetSharedLocked_nextOrder : (s.forgetSharedLocked leader).nextOrder = s.nextOrder := by
  unfold forgetSharedLocked
  cases s.shared.lookup leader with
  | none => rfl
  | some work => simp [forgetLeaderTask]

/-- What a registration does once nothing refuses it. -/
def registered [ReceiptCodec] (s : JoinState) (key : ReceiptKey) (deadline : InvocationResponseDeadline)
    (now startedWall : Nat) : JoinState :=
  let cleared := s.forgetSharedLocked key.reservedTaskId
  let joinable := cleared.joinable.insert (requestIdentity key)
    ⟨key.reservedTaskId, .of key, true, deadline, now, startedWall, s.nextOrder⟩
  { cleared with
    nextOrder := s.nextOrder + 1
    joinable := if maxJoinableLeaders < size joinable then forgetOldest joinable else joinable }

theorem registerLeader_cases [ReceiptCodec] (s : JoinState) (key : ReceiptKey)
    (deadline : InvocationResponseDeadline) (now startedWall observedEpoch : Nat) :
    s.registerLeader key deadline now startedWall observedEpoch = (false, s)
    ∨ s.mutationEpoch = observedEpoch ∧ s.mutations = ∅
      ∧ s.registerLeader key deadline now startedWall observedEpoch
        = (true, s.registered key deadline now startedWall) := by
  unfold registerLeader
  split
  · exact .inl rfl
  split
  · exact .inl rfl
  rename_i hopen
  simp only [not_or, not_not] at hopen
  cases hnext : checkedAdd wordBound s.nextOrder 1 with
  | none => exact .inl rfl
  | some nextOrder =>
    obtain ⟨-, rfl⟩ := checkedAdd_eq_some.mp hnext
    exact .inr ⟨hopen.1, hopen.2, rfl⟩

theorem registered_changes [ReceiptCodec] {key : ReceiptKey}
    {startedWall : Nat} (hquiet : e.cancels = none) (heffect : e.registers = true) :
    Changes e s (s.registered key deadline now startedWall) := by
  have hunshared : (s.forgetSharedLocked key.reservedTaskId).shared.lookup key.reservedTaskId = none := by
    rw [forgetSharedLocked_shared, lookup_erase]
  let leader : Leader := ⟨key.reservedTaskId, .of key, true, deadline, now, startedWall, s.nextOrder⟩
  have hregister : ∀ cleared, cleared.nextOrder = s.nextOrder →
      cleared.shared.lookup key.reservedTaskId = none →
      (∀ identity other, cleared.joinable.lookup identity = some other → other.taskId ≠ key.reservedTaskId) →
      Change e cleared { cleared with
        nextOrder := s.nextOrder + 1
        joinable := cleared.joinable.insert (requestIdentity key) leader } := by
    intro cleared horder hshared hjoinable
    exact .register heffect rfl horder.symm hshared hjoinable rfl rfl rfl (by rw [horder])
  refine .tail (.tail (.single (forgetSharedLocked_change hquiet))
    (hregister _ forgetSharedLocked_nextOrder hunshared fun _ _ => forgetLeaderTask_gone))
    (.rest ?_ rfl rfl rfl)
  dsimp only [registered]
  split
  · exact .retain
  · exact .refl _

theorem leaderSettled_change : Change e s (s.leaderSettled taskId) := by
  refine .rest (fun identity leader' h => ?_) rfl rfl rfl
  rw [leaderSettled, lookup_mapValues] at h
  obtain ⟨leader, hleader, rfl⟩ := map_eq_some_iff.mp h
  refine ⟨leader, hleader, ?_⟩
  split <;> exact ⟨rfl, rfl, rfl⟩

theorem candidate_change : Change e s (s.candidate identity now).2 := by
  unfold candidate
  split
  · split
    · exact .rest (.refl _) rfl rfl rfl
    · exact .rest .erase rfl rfl rfl
  · exact .rest (.refl _) rfl rfl rfl

theorem forgetLeader_change : Change e s (s.forgetLeader identity taskId) := by
  unfold forgetLeader
  split
  · split
    · exact .rest .erase rfl rfl rfl
    · exact .rest (.refl _) rfl rfl rfl
  · exact .rest (.refl _) rfl rfl rfl

/-- What a successful attach found. -/
structure Attaches [ReceiptCodec] (s : JoinState) (identity : RequestIdentity) (leader : TaskId)
    (joiner : ReceiptKey) (candidate : Leader) : Prop where
  candidate_eq : s.joinable.lookup identity = some candidate
  leader_eq : candidate.taskId = leader
  unissued : (s.shared.lookup leader).any (·.cancelIssued) = false
  self_ne : joiner.reservedTaskId ≠ leader
  unaliased : s.aliases.lookup joiner.reservedTaskId = none
  unshared : s.shared.lookup joiner.reservedTaskId = none

/-- The work an attach finds or starts. -/
def workOf (s : JoinState) (candidate : Leader) : SharedWork :=
  (s.shared.lookup candidate.taskId).getD ⟨candidate.holder, candidate.order, none, none, false, []⟩

theorem attach_cases [ReceiptCodec] (s : JoinState) (identity : RequestIdentity) (leader : TaskId)
    (joiner : ReceiptKey) (now : Nat) :
    s.attach identity leader joiner now = (none, s)
    ∨ ∃ candidate joined, s.Attaches identity leader joiner candidate
      ∧ joined = ⟨leader, .of joiner, none, candidate.order, none⟩
      ∧ s.attach identity leader joiner now = (some joined, membershipChanged { s with
          shared := s.shared.insert leader { s.workOf candidate with
            joiners := (s.workOf candidate).joiners ++ [joiner.reservedTaskId] }
          aliases := s.aliases.insert joiner.reservedTaskId joined }) := by
  unfold attach
  cases hcandidate : s.joinable.lookup identity with
  | none => exact .inl rfl
  | some candidate =>
    dsimp only
    split
    · exact .inl rfl
    · rename_i hrefused
      simp only [not_or, not_not] at hrefused
      obtain ⟨hself, -, -, haliases, hshared, ⟨rfl, -⟩, hissued⟩ := hrefused
      exact .inr ⟨candidate, _, ⟨hcandidate, rfl, by simpa using hissued, hself, haliases, hshared⟩, rfl, rfl⟩

theorem attach_change [ReceiptCodec] (s : JoinState) (identity : RequestIdentity) (leader : TaskId)
    (joiner : ReceiptKey) (now : Nat) : Change {} s (s.attach identity leader joiner now).2 := by
  rcases s.attach_cases identity leader joiner now with heq | ⟨candidate, joined, hattach, rfl, heq⟩
  · rw [heq]
    exact .rest (.refl _) rfl rfl rfl
  · obtain ⟨hcandidate, rfl, -, hself, haliases, hshared⟩ := hattach
    rw [heq]
    refine .attach ⟨candidate.taskId, .of joiner, none, candidate.order, none⟩ (s.workOf candidate) rfl
      hcandidate hself haliases hshared rfl rfl rfl ?_ (by simp) (by simp; rfl) (by simp; rfl) (by simp)
    unfold workOf
    cases s.shared.lookup candidate.taskId with
    | none => exact .inr ⟨rfl, rfl, rfl, rfl, rfl⟩
    | some work => exact .inl rfl

theorem setTerminalView_change {view : HolderTerminalView} (h : s.terminalView taskId = none) :
    Change e s (s.setTerminalView taskId view) := by
  unfold setTerminalView
  unfold terminalView at h
  cases hjoined : s.aliases.lookup taskId with
  | some joined =>
    rw [hjoined] at h
    refine .growAlias { joined with terminalView := some view } hjoined ⟨rfl, rfl, rfl, ?_, fun _ h => h⟩
      (.inl rfl) rfl rfl rfl rfl
    intro view' hview
    cases h.symm.trans hview
  | none =>
    rw [hjoined] at h
    cases hwork : s.shared.lookup taskId with
    | none => exact .rest (.refl _) rfl rfl rfl
    | some work =>
      rw [hwork] at h
      refine .growWork { work with terminalView := some view } hwork
        ⟨rfl, rfl, ?_, fun _ h => h, fun h => h⟩ (.inl rfl) rfl rfl rfl rfl rfl
      intro view' hview
      cases h.symm.trans hview

/-- The membership a captured context belongs to decides: another one is retired, and a first
terminal answer is written down. -/
theorem projectHolder_cases (s : JoinState) (captured : HolderReplyContext) (sharedTerminal : Bool) :
    (s.projectHolder captured sharedTerminal).2 = s
    ∨ ∃ view, s.terminalView captured.taskId = none
      ∧ (s.projectHolder captured sharedTerminal).2 = s.setTerminalView captured.taskId view := by
  unfold projectHolder
  split
  · exact .inl rfl
  · exact .inl rfl
  · exact .inl rfl
  split
  · exact .inl rfl
  split
  · exact .inl rfl
  · exact .inl rfl
  rename_i hview
  split
  · exact .inr ⟨_, hview, rfl⟩
  split
  · exact .inl rfl
  split
  · exact .inr ⟨_, hview, rfl⟩
  · exact .inl rfl

theorem projectHolder_change {captured : HolderReplyContext} {sharedTerminal : Bool} :
    Change e s (s.projectHolder captured sharedTerminal).2 := by
  rcases s.projectHolder_cases captured sharedTerminal with heq | ⟨view, hview, heq⟩
  · rw [heq]
    exact .rest (.refl _) rfl rfl rfl
  · rw [heq]
    exact setTerminalView_change hview

theorem cancelIfReleased_changes : Changes e s (s.cancelIfReleased leader).2 := by
  unfold cancelIfReleased
  split
  · exact .refl
  rename_i work hwork
  dsimp only
  split
  · exact .refl
  refine .tail (.single ?_) forgetLeaderTask_change
  exact .growWork { work with cancelIssued := true } hwork ⟨rfl, rfl, fun _ h => h, fun _ h => h, fun _ => rfl⟩
    (.inl rfl) rfl rfl rfl rfl rfl

/-- A cancel of an unknown Task only ends its joins. Otherwise it is recorded at its holder first,
and then the work is looked at. -/
theorem cancelHolder_cases (s : JoinState) (taskId : TaskId) (epochMs : EpochMs) :
    s.aliases.lookup taskId = none ∧ s.shared.lookup taskId = none
      ∧ s.cancelHolder taskId epochMs = (.cancelShared taskId, s.forgetLeaderTask taskId)
    ∨ ∃ leader recorded, Change { cancels := some taskId } s recorded
      ∧ (∀ other work, s.shared.lookup other = some work → ∃ work', recorded.shared.lookup other = some work'
        ∧ work'.generation = work.generation ∧ work'.cancelIssued = work.cancelIssued)
      ∧ s.cancelHolder taskId epochMs = recorded.cancelIfReleased leader := by
  unfold cancelHolder
  cases hjoined : s.aliases.lookup taskId with
  | some joined =>
    let released := { joined with cancelledAtEpochMs := joined.cancelledAtEpochMs.or (some epochMs) }
    refine .inr ⟨joined.leader, { s with aliases := s.aliases.insert taskId released }, ?_,
      fun _ work hwork => ⟨work, hwork, rfl, rfl⟩, rfl⟩
    refine .growAlias released hjoined ⟨rfl, rfl, rfl, fun _ h => h, ?_⟩ (.inr rfl) rfl rfl rfl rfl
    intro epochMs' h
    simp [released, h]
  | none =>
    cases hwork : s.shared.lookup taskId with
    | none => exact .inl ⟨rfl, rfl, rfl⟩
    | some work =>
      let released := { work with leaderReleasedAtEpochMs := work.leaderReleasedAtEpochMs.or (some epochMs) }
      refine .inr ⟨taskId, { s with shared := s.shared.insert taskId released }, ?_, ?_, rfl⟩
      · refine .growWork released hwork ⟨rfl, rfl, fun _ h => h, ?_, fun h => h⟩ (.inr ⟨rfl, hjoined⟩) rfl rfl rfl rfl rfl
        intro epochMs' h
        simp [released, h]
      · intro other work' hwork'
        rw [lookup_insert_ite]
        by_cases heq : other = taskId
        · rw [heq, hwork] at hwork'
          cases hwork'
          exact ⟨released, if_pos heq, rfl, rfl⟩
        · exact ⟨work', by rw [if_neg heq, hwork'], rfl, rfl⟩

theorem cancelHolder_changes : Changes { cancels := some taskId } s (s.cancelHolder taskId epochMs).2 := by
  rcases s.cancelHolder_cases taskId epochMs with ⟨-, -, heq⟩ | ⟨leader, recorded, hchange, -, heq⟩
  · rw [heq]
    exact .single forgetLeaderTask_change
  · rw [heq]
    exact .head hchange cancelIfReleased_changes

theorem forgetMissingContext_change {read : HolderReadContext} : Change {} s (s.forgetMissingContext read) := by
  unfold forgetMissingContext
  split
  · exact .rest (.refl _) rfl rfl rfl
  split
  · exact forgetSharedLocked_change rfl
  · exact .rest (.refl _) rfl rfl rfl

end Functions

theorem apply_changes [ReceiptCodec] (call : Call) : Changes (call.effect s) s (call.apply s) := by
  cases call with
  | registerLeader key deadline now startedWall observedEpoch =>
    simp only [Call.apply, Call.effect]
    rcases s.registerLeader_cases key deadline now startedWall observedEpoch with heq | ⟨-, -, heq⟩
    · rw [heq]
    · rw [heq]
      exact registered_changes rfl rfl
  | leaderSettled taskId => exact .single leaderSettled_change
  | closeJoins => exact .single (.rest (.of_lookup (by simp [closeJoins, Call.apply])) rfl rfl rfl)
  | trackMutation taskId => exact .single (.rest (.of_lookup (by simp [trackMutation, Call.apply])) rfl rfl rfl)
  | mutationFinished taskId => exact .single (.rest (.refl _) rfl rfl rfl)
  | candidate identity now => exact .single candidate_change
  | forgetLeader identity taskId => exact .single forgetLeader_change
  | attach identity leader joiner now => exact .single (attach_change ..)
  | projectHolder captured sharedTerminal => exact .single projectHolder_change
  | cancelHolder taskId epochMs => exact cancelHolder_changes
  | cancelHolderInContext read epochMs =>
    simp only [Call.apply, Call.effect, cancelHolderInContext]
    split
    · exact .refl
    split
    · exact .refl
    · exact cancelHolder_changes
  | forgetShared leader => exact .single (forgetSharedLocked_change rfl)
  | forgetMissingContext read => exact .single forgetMissingContext_change

theorem coherent_after [ReceiptCodec] (calls : List Call) : (after calls).Coherent := by
  induction calls with
  | nil => exact coherent_empty
  | cons call earlier ih => exact ih.changes (apply_changes call)

/-! ## Where a joinable leader comes from -/

theorem Change.fewer (h : Change e s s') (heffect : e.registers = false) : Fewer s'.joinable s.joinable := by
  cases h with
  | rest hjoinable | forget _ _ hjoinable => exact hjoinable
  | register hregisters => simp [heffect] at hregisters
  | attach _ _ _ _ _ _ _ _ _ _ _ hjoinable | growAlias _ _ _ _ hjoinable
  | growWork _ _ _ _ _ hjoinable => exact hjoinable ▸ .refl _

theorem Changes.fewer (h : Changes e s s') (heffect : e.registers = false) : Fewer s'.joinable s.joinable := by
  induction h with
  | refl => exact .refl _
  | tail _ hchange ih =>
    intro identity leader'' h''
    obtain ⟨leader', h', htask', hholder', horder'⟩ := hchange.fewer heffect identity leader'' h''
    obtain ⟨leader, h, htask, hholder, horder⟩ := ih identity leader' h'
    exact ⟨leader, h, htask'.trans htask, hholder'.trans hholder, horder'.trans horder⟩

section Joinable

variable [ReceiptCodec] {identity : RequestIdentity} {leader' : Leader}

theorem registered_joinable {key : ReceiptKey} {now startedWall : Nat}
    (h : (s.registered key deadline now startedWall).joinable.lookup identity = some leader') :
    s.joinable.lookup identity = some leader' ∧ leader'.taskId ≠ key.reservedTaskId
    ∨ identity = requestIdentity key ∧ leader'.taskId = key.reservedTaskId := by
  have hinsert : ((s.forgetSharedLocked key.reservedTaskId).joinable.insert (requestIdentity key)
      ⟨key.reservedTaskId, .of key, true, deadline, now, startedWall, s.nextOrder⟩).lookup identity
      = some leader' := by
    unfold registered at h
    dsimp only at h
    split at h
    · exact (lookup_retain.mp h).1
    · exact h
  rcases lookup_insert_cases hinsert with ⟨heq, rfl⟩ | ⟨-, hinsert⟩
  · exact .inr ⟨heq, rfl⟩
  · refine .inl ⟨?_, forgetLeaderTask_gone hinsert⟩
    have hkept := (lookup_retain.mp hinsert).1
    split at hkept
    · rwa [membershipChanged_joinable] at hkept
    · exact hkept

/-- A leader that can be joined after a call could be joined before it, and the call neither closed
the joins nor registered its Task again, or the call registered it. -/
theorem joinable_apply {call : Call} (h : (call.apply s).joinable.lookup identity = some leader') :
    (∃ leader, s.joinable.lookup identity = some leader ∧ leader'.taskId = leader.taskId)
      ∧ call.isMutation = false
      ∧ (∀ key observedEpoch, call.Registers s key observedEpoch → leader'.taskId ≠ key.reservedTaskId)
    ∨ ∃ key observedEpoch, call.Registers s key observedEpoch ∧ identity = requestIdentity key
      ∧ leader'.taskId = key.reservedTaskId := by
  have hkept : (call.effect s).registers = false →
      ∃ leader, s.joinable.lookup identity = some leader ∧ leader'.taskId = leader.taskId := by
    intro heffect
    obtain ⟨leader, hleader, htask, -, -⟩ := Changes.fewer (apply_changes call) heffect identity leader' h
    exact ⟨leader, hleader, htask⟩
  cases call with
  | registerLeader key deadline now startedWall observedEpoch =>
    rcases s.registerLeader_cases key deadline now startedWall observedEpoch with heq | ⟨-, -, heq⟩
    · refine .inl ⟨hkept (congrArg Prod.fst heq), rfl, ?_⟩
      rintro key' observedEpoch' ⟨_, _, _, hcall, hregisters⟩
      cases hcall
      rw [heq] at hregisters
      cases hregisters
    · rw [Call.apply, heq] at h
      rcases registered_joinable h with ⟨hold, hne⟩ | hnew
      · refine .inl ⟨⟨leader', hold, rfl⟩, rfl, ?_⟩
        rintro key' observedEpoch' ⟨_, _, _, hcall, -⟩
        cases hcall
        exact hne
      · exact .inr ⟨key, observedEpoch, ⟨deadline, now, startedWall, rfl, congrArg Prod.fst heq⟩, hnew⟩
  | closeJoins => simp [Call.apply, closeJoins] at h
  | trackMutation taskId => simp [Call.apply, trackMutation] at h
  | _ => exact .inl ⟨hkept rfl, rfl, by rintro _ _ ⟨_, _, _, hcall, -⟩; cases hcall⟩

/-- No call of `later` closes the joins or registers this Task again. -/
def Undisturbed (taskId : TaskId) (earlier : List Call) : List Call → Prop
  | [] => True
  | call :: later => Undisturbed taskId earlier later ∧ call.isMutation = false
      ∧ ∀ key observedEpoch, call.Registers (after (later ++ earlier)) key observedEpoch →
        taskId ≠ key.reservedTaskId

theorem Undisturbed.isMutation_eq {earlier later : List Call}
    (h : Undisturbed taskId earlier later) : ∀ call ∈ later, call.isMutation = false := by
  induction later with
  | nil => exact nofun
  | cons call later ih => exact forall_mem_cons.mpr ⟨h.2.1, ih h.1⟩

/-- Over a history: the leader could be joined at its start, or it was registered since, and is
undisturbed from then on. -/
theorem joinable_later {earlier : List Call} (later : List Call)
    (h : (after (later ++ earlier)).joinable.lookup identity = some leader') :
    (∃ leader, (after earlier).joinable.lookup identity = some leader ∧ leader'.taskId = leader.taskId)
      ∧ Undisturbed leader'.taskId earlier later
    ∨ ∃ since call before key observedEpoch, later = since ++ call :: before
      ∧ call.Registers (after (before ++ earlier)) key observedEpoch ∧ identity = requestIdentity key
      ∧ leader'.taskId = key.reservedTaskId ∧ Undisturbed leader'.taskId (call :: before ++ earlier) since := by
  induction later generalizing leader' with
  | nil => exact .inl ⟨⟨leader', h, rfl⟩, trivial⟩
  | cons call later ih =>
    rcases joinable_apply (s := after (later ++ earlier)) h with ⟨⟨leader, hleader, htask⟩, hquiet⟩
      | ⟨key, observedEpoch, hregisters, hidentity, htask⟩
    · rcases ih hleader with ⟨⟨first, hfirst, htask'⟩, hlater⟩
        | ⟨since, call', before, key, observedEpoch, rfl, hregisters, hidentity, htask', hsince⟩
      · exact .inl ⟨⟨first, hfirst, htask.trans htask'⟩, htask ▸ hlater, hquiet⟩
      · refine .inr ⟨call :: since, call', before, key, observedEpoch, rfl, hregisters, hidentity,
          htask.trans htask', htask ▸ hsince, ?_⟩
        simpa only [append_assoc, cons_append] using hquiet
    · exact .inr ⟨[], call, later, key, observedEpoch, rfl, hregisters, hidentity, htask, trivial⟩

end Joinable

/-! ## Generations -/

/-- A leader of this generation can be joined or holds shared work. -/
def Live (s : JoinState) (generation : Nat) : Prop :=
  (∃ identity leader, s.joinable.lookup identity = some leader ∧ leader.order = generation)
    ∨ ∃ leader work, s.shared.lookup leader = some work ∧ work.generation = generation

structure Over (s : JoinState) (generation : Nat) : Prop where
  lt : generation < s.nextOrder
  dead : ¬s.Live generation

variable {generation : Nat} {work : SharedWork} {leader : TaskId}

theorem Over.change (h : s.Over generation) (hchange : Change e s s') : s'.Over generation := by
  obtain ⟨hlt, hdead⟩ := h
  cases hchange with
  | growWork work' hwork hgrows =>
    have hgeneration := hgrows.generation
    constructor <;> grind [Live]
  | _ => constructor <;> grind [Live, Fewer]

theorem Over.changes (h : s.Over generation) (hchanges : Changes e s s') : s'.Over generation := by
  induction hchanges with
  | refl => exact h
  | tail _ hchange ih => exact ih.change hchange

namespace Coherent

/-- Forgetting shared work ends its generation. -/
theorem over_of_forget (h : s.Coherent)
    (hwork : s.shared.lookup leader = some work) (hjoinable : Fewer s'.joinable s.joinable)
    (hgone : ∀ identity other, s'.joinable.lookup identity = some other → other.taskId ≠ leader)
    (hshared : s'.shared = s.shared.erase leader) (horder : s'.nextOrder = s.nextOrder) :
    s'.Over work.generation := by
  refine ⟨horder ▸ h.shared.order_lt hwork, ?_⟩
  rintro (⟨identity, other, hother, heq⟩ | ⟨leader', work', hwork', heq⟩)
  · obtain ⟨other', hother', htask, -, horder'⟩ := hjoinable identity other hother
    have hsame := (h.shared.joinable_iff hwork hother').mpr (horder' ▸ heq)
    exact hgone identity other hother (htask.trans hsame)
  · rw [hshared, lookup_erase_ite] at hwork'
    split at hwork'
    · cases hwork'
    · rename_i hne
      exact hne (h.shared.unique hwork' hwork heq)

/-- An alias keeps its membership until its generation is over. -/
theorem alias_change (h : s.Coherent) {joined : JoinAlias}
    (hjoined : s.aliases.lookup taskId = some joined) (hchange : Change e s s') :
    (∃ joined', s'.aliases.lookup taskId = some joined' ∧ joined.Grows joined')
      ∨ s'.Over joined.generation := by
  cases hchange with
  | rest _ _ haliases | register _ _ _ _ _ _ _ haliases | growWork _ _ _ _ _ _ _ haliases =>
    exact .inl ⟨joined, haliases ▸ hjoined, .refl _⟩
  | @forget leader work _ hwork hjoinable hgone hshared haliases horder =>
    by_cases hmem : taskId ∈ work.joiners
    · obtain ⟨joined', hjoined', hleader⟩ := h.aliases.joined hwork hmem
      obtain rfl := some.inj (hjoined.symm.trans hjoined')
      obtain ⟨work', hwork', -, hgeneration⟩ := h.aliases.aliased hjoined
      rw [hleader, hwork] at hwork'
      cases hwork'
      exact .inr (hgeneration ▸ h.over_of_forget hwork hjoinable hgone hshared horder)
    · refine .inl ⟨joined, ?_, .refl _⟩
      rw [haliases, lookup_eraseAll, if_neg hmem, hjoined]
  | attach joined' work _ _ _ halias _ _ _ _ _ _ _ haliases =>
    have hne : taskId ≠ joined'.holder.taskId := by
      intro heq
      rw [← heq, hjoined] at halias
      cases halias
    refine .inl ⟨joined, ?_, .refl _⟩
    rw [haliases, lookup_insert_ite, if_neg hne, hjoined]
  | @growAlias taskId' old joined' hold hgrows _ _ _ haliases =>
    left
    rw [haliases, lookup_insert_ite]
    by_cases heq : taskId = taskId'
    · subst heq
      obtain rfl := some.inj (hjoined.symm.trans hold)
      exact ⟨joined', if_pos rfl, hgrows⟩
    · exact ⟨joined, by rw [if_neg heq, hjoined], .refl _⟩

/-- Shared work stays with its leader until its generation is over, and the leader does not
become an alias meanwhile. -/
theorem work_change (h : s.Coherent)
    (hwork : s.shared.lookup leader = some work) (hchange : Change e s s') :
    (∃ work', s'.shared.lookup leader = some work' ∧ work.Grows work'
      ∧ (s.aliases.lookup leader = none → s'.aliases.lookup leader = none))
      ∨ s'.Over work.generation := by
  cases hchange with
  | rest _ hshared haliases => exact .inl ⟨work, hshared ▸ hwork, .refl _, fun h => haliases ▸ h⟩
  | @forget leader' work' _ hwork' hjoinable hgone hshared haliases horder =>
    by_cases heq : leader = leader'
    · subst heq
      exact .inr (h.over_of_forget hwork hjoinable hgone hshared horder)
    · refine .inl ⟨work, ?_, .refl _, fun hnone => ?_⟩
      · rw [hshared, lookup_erase_ite, if_neg heq, hwork]
      · rw [haliases, lookup_eraseAll, hnone, ite_self]
  | register _ _ _ _ _ _ hshared haliases =>
    exact .inl ⟨work, hshared ▸ hwork, .refl _, fun h => haliases ▸ h⟩
  | @attach _ candidate joined work' _ _ _ _ hshare _ _ _ hfound _ hshared haliases =>
    have hne : leader ≠ joined.holder.taskId := by
      intro heq
      rw [← heq, hwork] at hshare
      cases hshare
    left
    rw [hshared, lookup_insert_ite, haliases, lookup_insert_ite, if_neg hne]
    by_cases heq : leader = candidate.taskId
    · rw [← heq, hwork] at hfound
      rcases hfound with hfound | ⟨hfound, -⟩
      · obtain rfl := some.inj hfound
        exact ⟨_, if_pos heq, ⟨rfl, rfl, fun _ h => h, fun _ h => h, fun h => h⟩, id⟩
      · cases hfound
    · exact ⟨work, by rw [if_neg heq, hwork], .refl _, id⟩
  | @growAlias taskId' old joined' hold _ _ _ hshared haliases =>
    refine .inl ⟨work, hshared ▸ hwork, .refl _, fun hnone => ?_⟩
    have hne : leader ≠ taskId' := by
      intro heq
      rw [← heq, hnone] at hold
      cases hold
    rw [haliases, lookup_insert_ite, if_neg hne, hnone]
  | @growWork leader' old work' hold hgrows _ _ _ hshared haliases =>
    left
    rw [hshared, lookup_insert_ite, haliases]
    by_cases heq : leader = leader'
    · subst heq
      obtain rfl := some.inj (hwork.symm.trans hold)
      exact ⟨work', if_pos rfl, hgrows, id⟩
    · exact ⟨work, by rw [if_neg heq, hwork], .refl _, id⟩

theorem alias_changes (h : s.Coherent) {joined : JoinAlias}
    (hjoined : s.aliases.lookup taskId = some joined) (hchanges : Changes e s s') :
    (∃ joined', s'.aliases.lookup taskId = some joined' ∧ joined.Grows joined')
      ∨ s'.Over joined.generation := by
  induction hchanges with
  | refl => exact .inl ⟨joined, hjoined, .refl joined⟩
  | tail hchanges hchange ih =>
    rcases ih with ⟨joined', hjoined', hgrows⟩ | hover
    · rcases (h.changes hchanges).alias_change hjoined' hchange with ⟨joined'', hjoined'', hgrows'⟩ | hover
      · exact .inl ⟨joined'', hjoined'', hgrows.trans hgrows'⟩
      · exact .inr (hgrows.generation ▸ hover)
    · exact .inr (hover.change hchange)

theorem work_changes (h : s.Coherent)
    (hwork : s.shared.lookup leader = some work) (hchanges : Changes e s s') :
    (∃ work', s'.shared.lookup leader = some work' ∧ work.Grows work') ∨ s'.Over work.generation := by
  induction hchanges with
  | refl => exact .inl ⟨work, hwork, .refl work⟩
  | tail hchanges hchange ih =>
    rcases ih with ⟨work', hwork', hgrows⟩ | hover
    · rcases (h.changes hchanges).work_change hwork' hchange with ⟨work'', hwork'', hgrows', -⟩ | hover
      · exact .inl ⟨work'', hwork'', hgrows.trans hgrows'⟩
      · exact .inr (hgrows.generation ▸ hover)
    · exact .inr (hover.change hchange)

end Coherent

end JoinState

end Unica.Runtime
