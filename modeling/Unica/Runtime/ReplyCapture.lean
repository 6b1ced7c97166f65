import Unica.Runtime.Holders

/-!
# Captured replies and the membership revision

A reply is captured before the registry lock is released and projected after it is
taken again. In between its Task may have joined shared work and left it, so that
the Task is no member at either end. The revision tells: whoever becomes a member
moves it, it never goes back, and once it has overflowed nobody becomes a member.
-/

namespace Unica.Runtime

open Lib Receipt Unica.Task

namespace JoinState

/-- The Task is an alias or a leader of shared work. -/
def Member (s : JoinState) (taskId : TaskId) : Prop :=
  s.aliases.lookup taskId ≠ none ∨ s.shared.lookup taskId ≠ none

instance (s : JoinState) (taskId : TaskId) : Decidable (s.Member taskId) :=
  inferInstanceAs (Decidable (_ ∨ _))

/-- The revision as a number, an overflowed one past all others. -/
def mark (s : JoinState) : Nat := if s.membershipOverflowed then wordBound else s.membershipRevision

def RevisionFits (s : JoinState) : Prop := s.membershipRevision < wordBound

/-- No earlier revision comes back, and without a new one there is no new member. -/
structure Advances (s s' : JoinState) : Prop where
  fits : s'.RevisionFits
  mark_le : s.mark ≤ s'.mark
  member : s'.mark = s.mark → ∀ {taskId}, s'.Member taskId → s.Member taskId

variable {s s' s'' : JoinState} {leader taskId : TaskId} {identity : RequestIdentity}
  {now epochMs : Nat} {captured : HolderReplyContext}

theorem Advances.refl (h : s.RevisionFits) : s.Advances s := ⟨h, Nat.le_refl _, fun _ _ h => h⟩

theorem Advances.trans (h : s.Advances s') (h' : s'.Advances s'') : s.Advances s'' where
  fits := h'.fits
  mark_le := Nat.le_trans h.mark_le h'.mark_le
  member := by
    intro hmark taskId hmember
    have hle := h.mark_le
    have hle' := h'.mark_le
    exact h.member (by omega) (h'.member (by omega) hmember)

/-- A change that leaves the revision alone must not make members. -/
theorem Advances.of_same (hfits : s.RevisionFits) (hrevision : s'.membershipRevision = s.membershipRevision)
    (hoverflow : s'.membershipOverflowed = s.membershipOverflowed)
    (hmember : ∀ taskId, s'.Member taskId → s.Member taskId) : s.Advances s' where
  fits := by rwa [RevisionFits, hrevision]
  mark_le := by rw [mark, mark, hrevision, hoverflow]
  member := fun _ _ => hmember _

/-- Neither table nor revision changes. -/
theorem Advances.of_tables (hfits : s.RevisionFits) (hrevision : s'.membershipRevision = s.membershipRevision)
    (hoverflow : s'.membershipOverflowed = s.membershipOverflowed) (hshared : s'.shared = s.shared)
    (haliases : s'.aliases = s.aliases) : s.Advances s' :=
  .of_same hfits hrevision hoverflow fun taskId h => by rwa [Member, hshared, haliases] at h

theorem membershipChanged_mark (h : s.RevisionFits) :
    s.membershipChanged.RevisionFits ∧ s.mark ≤ s.membershipChanged.mark
      ∧ (s.membershipOverflowed = false → s.membershipChanged.mark = s.mark + 1) := by
  unfold RevisionFits at h
  unfold membershipChanged
  cases hnext : checkedAdd wordBound s.membershipRevision 1 with
  | none =>
    rw [checkedAdd_eq_none] at hnext
    refine ⟨h, ?_, ?_⟩
    · unfold mark
      split
      · simp
      · simp only [if_true]
        omega
    · intro hoverflow
      simp only [mark, hoverflow, if_true, Bool.false_eq_true, if_false]
      omega
  | some next =>
    obtain ⟨hlt, rfl⟩ := checkedAdd_eq_some.mp hnext
    refine ⟨hlt, ?_, ?_⟩
    · unfold mark
      split
      · simp_all
      · simp_all
    · intro hoverflow
      simp [mark, hoverflow]

/-- Members may only go when the revision moves on. -/
theorem Advances.membershipChanged (hfits : s.RevisionFits) (hrevision : s'.membershipRevision = s.membershipRevision)
    (hoverflow : s'.membershipOverflowed = s.membershipOverflowed)
    (hmember : s.membershipOverflowed = true → ∀ taskId, s'.Member taskId → s.Member taskId) :
    s.Advances s'.membershipChanged := by
  have hmark : s'.mark = s.mark := by rw [mark, mark, hrevision, hoverflow]
  have hfits' : s'.RevisionFits := by rwa [RevisionFits, hrevision]
  obtain ⟨hfits'', hle, hmoves⟩ := membershipChanged_mark hfits'
  refine ⟨hfits'', hmark ▸ hle, ?_⟩
  intro hsame taskId h
  have hover : s.membershipOverflowed = true := by
    cases hflag : s.membershipOverflowed with
    | true => rfl
    | false =>
      rw [hmoves (hoverflow.trans hflag)] at hsame
      omega
  rw [Member, membershipChanged_aliases, membershipChanged_shared] at h
  exact hmember hover taskId h

theorem forgetLeaderTask_advances (h : s.RevisionFits) : s.Advances (s.forgetLeaderTask taskId) :=
  .of_tables h rfl rfl rfl rfl

theorem forgetSharedLocked_advances (h : s.RevisionFits) : s.Advances (s.forgetSharedLocked leader) := by
  unfold forgetSharedLocked
  cases hwork : s.shared.lookup leader with
  | none => exact forgetLeaderTask_advances h
  | some work =>
    have hforget : s.Advances (membershipChanged { s with
        shared := s.shared.erase leader
        aliases := Table.eraseAll work.joiners s.aliases }) := by
      refine .membershipChanged h rfl rfl ?_
      intro _ taskId hmember
      unfold Member at hmember ⊢
      grind
    exact hforget.trans (forgetLeaderTask_advances hforget.fits)

theorem attach_of_overflowed [ReceiptCodec] {joiner : ReceiptKey} (h : s.membershipOverflowed = true) :
    s.attach identity leader joiner now = (none, s) := by
  unfold attach
  cases s.joinable.lookup identity with
  | none => rfl
  | some candidate =>
    dsimp only
    rw [if_pos (.inr (.inl h))]

section

variable (h : s.RevisionFits) {read : HolderReadContext}
include h

theorem attach_advances [ReceiptCodec] {joiner : ReceiptKey} :
    s.Advances (s.attach identity leader joiner now).2 := by
  cases hflag : s.membershipOverflowed with
  | true =>
    rw [attach_of_overflowed hflag]
    exact .refl h
  | false =>
    rcases s.attach_cases identity leader joiner now with heq | ⟨candidate, joined, -, -, heq⟩
    · rw [heq]
      exact .refl h
    · rw [heq]
      refine .membershipChanged h rfl rfl ?_
      intro hover
      rw [hflag] at hover
      cases hover

theorem growAlias_advances {joined joined' : JoinAlias} (hjoined : s.aliases.lookup taskId = some joined) :
    s.Advances { s with aliases := s.aliases.insert taskId joined' } := by
  refine .of_same h rfl rfl ?_
  intro other hmember
  unfold Member at hmember ⊢
  grind

theorem growWork_advances {work work' : SharedWork} (hwork : s.shared.lookup leader = some work) :
    s.Advances { s with shared := s.shared.insert leader work' } := by
  refine .of_same h rfl rfl ?_
  intro other hmember
  unfold Member at hmember ⊢
  grind

theorem setTerminalView_advances {view : HolderTerminalView} :
    s.Advances (s.setTerminalView taskId view) := by
  unfold setTerminalView
  cases hjoined : s.aliases.lookup taskId with
  | some joined => exact growAlias_advances h hjoined
  | none =>
    cases hwork : s.shared.lookup taskId with
    | some work => exact growWork_advances h hwork
    | none => exact .refl h

theorem projectHolder_advances {sharedTerminal : Bool} :
    s.Advances (s.projectHolder captured sharedTerminal).2 := by
  rcases s.projectHolder_cases captured sharedTerminal with heq | ⟨view, -, heq⟩
  · rw [heq]
    exact .refl h
  · rw [heq]
    exact setTerminalView_advances h

theorem cancelIfReleased_advances : s.Advances (s.cancelIfReleased leader).2 := by
  unfold cancelIfReleased
  cases hwork : s.shared.lookup leader with
  | none => exact .refl h
  | some work =>
    dsimp only
    split
    · exact .refl h
    · have hissued : s.Advances { s with shared := s.shared.insert leader { work with cancelIssued := true } } :=
        growWork_advances h hwork
      exact hissued.trans (forgetLeaderTask_advances hissued.fits)

theorem cancelHolder_advances : s.Advances (s.cancelHolder taskId epochMs).2 := by
  unfold cancelHolder
  cases hjoined : s.aliases.lookup taskId with
  | some joined =>
    have hreleased : s.Advances { s with aliases := s.aliases.insert taskId { joined with
        cancelledAtEpochMs := joined.cancelledAtEpochMs.or (some epochMs) } } := growAlias_advances h hjoined
    exact hreleased.trans (cancelIfReleased_advances hreleased.fits)
  | none =>
    cases hwork : s.shared.lookup taskId with
    | none => exact forgetLeaderTask_advances h
    | some work =>
      have hreleased : s.Advances { s with shared := s.shared.insert taskId { work with
          leaderReleasedAtEpochMs := work.leaderReleasedAtEpochMs.or (some epochMs) } } := growWork_advances h hwork
      exact hreleased.trans (cancelIfReleased_advances hreleased.fits)

theorem cancelHolderInContext_advances : s.Advances (s.cancelHolderInContext read epochMs).2 := by
  unfold cancelHolderInContext
  cases s.context read.holder.taskId with
  | none => exact .refl h
  | some current =>
    dsimp only
    split
    · exact .refl h
    · exact cancelHolder_advances h

theorem forgetMissingContext_advances : s.Advances (s.forgetMissingContext read) := by
  unfold forgetMissingContext
  cases s.context read.holder.taskId with
  | none => exact .refl h
  | some current =>
    dsimp only
    split
    · exact forgetSharedLocked_advances h
    · exact .refl h

theorem candidate_advances : s.Advances (s.candidate identity now).2 := by
  unfold candidate
  split
  · split
    · exact .refl h
    · exact .of_tables h rfl rfl rfl rfl
  · exact .refl h

theorem forgetLeader_advances : s.Advances (s.forgetLeader identity taskId) := by
  unfold forgetLeader
  split
  · split
    · exact .of_tables h rfl rfl rfl rfl
    · exact .refl h
  · exact .refl h

theorem registerLeader_advances [ReceiptCodec] {key : ReceiptKey}
    {deadline : InvocationResponseDeadline} {startedWall observedEpoch : Nat} :
    s.Advances (s.registerLeader key deadline now startedWall observedEpoch).2 := by
  rcases s.registerLeader_cases key deadline now startedWall observedEpoch with heq | ⟨-, -, heq⟩
  · rw [heq]
    exact .refl h
  · rw [heq]
    have hcleared : s.Advances (s.forgetSharedLocked key.reservedTaskId) := forgetSharedLocked_advances h
    exact hcleared.trans (.of_tables hcleared.fits rfl rfl rfl rfl)

end

theorem apply_advances [ReceiptCodec] (call : Call) (h : s.RevisionFits) : s.Advances (call.apply s) := by
  cases call with
  | registerLeader key deadline now startedWall observedEpoch => exact registerLeader_advances h
  | leaderSettled | closeJoins | trackMutation | mutationFinished =>
    exact .of_tables h rfl rfl rfl rfl
  | candidate identity now => exact candidate_advances h
  | forgetLeader identity taskId => exact forgetLeader_advances h
  | attach identity leader joiner now => exact attach_advances h
  | projectHolder captured sharedTerminal => exact projectHolder_advances h
  | cancelHolder taskId epochMs => exact cancelHolder_advances h
  | cancelHolderInContext read epochMs => exact cancelHolderInContext_advances h
  | forgetShared leader => exact forgetSharedLocked_advances h
  | forgetMissingContext read => exact forgetMissingContext_advances h

theorem revisionFits_after [ReceiptCodec] (calls : List Call) : (after calls).RevisionFits := by
  induction calls with
  | nil => exact Nat.two_pow_pos 64
  | cons call earlier ih => exact (apply_advances call ih).fits

theorem after_advances [ReceiptCodec] (earlier later : List Call) :
    (after earlier).Advances (after (later ++ earlier)) := by
  induction later with
  | nil => exact .refl (revisionFits_after earlier)
  | cons call later ih => exact ih.trans (apply_advances call (revisionFits_after _))

/-- Every member has a context. -/
theorem Coherent.not_member (h : s.Coherent) (hcontext : s.context taskId = none) : ¬s.Member taskId := by
  unfold context at hcontext
  cases hjoined : s.aliases.lookup taskId with
  | some joined =>
    obtain ⟨work, hwork, -, -⟩ := h.aliases.aliased hjoined
    simp [hjoined, hwork] at hcontext
  | none =>
    simp only [hjoined, Option.map_eq_none_iff] at hcontext
    simp [Member, hjoined, hcontext]

theorem mark_eq_of_revision_eq (h : s.revision = s'.revision) : s.mark = s'.mark := by
  unfold revision at h
  unfold mark
  cases hflag : s.membershipOverflowed <;> cases hflag' : s'.membershipOverflowed <;> simp_all

/-- Nobody was a member between two observations of one revision, the first of which saw no member. -/
theorem not_member_between [ReceiptCodec] {earlier later : List Call}
    (hcontext : (after earlier).context taskId = none)
    (hrevision : (after earlier).revision = (after (later ++ earlier)).revision) :
    ∀ passed, passed <:+ later → ¬(after (passed ++ earlier)).Member taskId := by
  intro passed ⟨rest, hlater⟩ hmember
  have hmark := mark_eq_of_revision_eq hrevision
  have hfirst := after_advances earlier passed
  have hsecond := after_advances (passed ++ earlier) rest
  rw [← List.append_assoc, hlater] at hsecond
  have hle := hfirst.mark_le
  have hle' := hsecond.mark_le
  exact (coherent_after earlier).not_member hcontext (hfirst.member (by omega) hmember)

theorem replyProjection_unchanged {before : HolderReplyContext} (h : s.replyProjection before = .unchanged) :
    before.read = none ∧ before.revision = s.revision := by
  unfold replyProjection at h
  dsimp only at h
  split at h
  · cases h
  split at h
  · cases h
  · rename_i hsame
    simp only [not_or, not_not] at hsame
    exact ⟨hsame.1, hsame.2.2.2⟩

theorem projectHolder_shared_of_unread {sharedTerminal : Bool}
    (hread : captured.read = none) (h : (s.projectHolder captured sharedTerminal).1 = .shared) :
    captured.revision = s.revision := by
  unfold projectHolder at h
  rw [hread] at h
  cases hcontext : s.context captured.taskId with
  | some current =>
    rw [hcontext] at h
    cases h
  | none =>
    rw [hcontext] at h
    by_contra hne
    simp [hne] at h

/-- A reply that is projected as unchanged, or as the shared one for a Task captured outside any
membership, was captured from a Task that has not been a member since. -/
theorem reply_capture_is_free_of_aba [ReceiptCodec] (earlier later : List Call) (taskId : TaskId) :
    ((after (later ++ earlier)).replyProjection ((after earlier).captureReply taskId) = .unchanged →
      ∀ passed, passed <:+ later → ¬(after (passed ++ earlier)).Member taskId)
    ∧ ∀ sharedTerminal, ((after earlier).captureReply taskId).read = none →
      ((after (later ++ earlier)).projectHolder ((after earlier).captureReply taskId) sharedTerminal).1 = .shared →
      ∀ passed, passed <:+ later → ¬(after (passed ++ earlier)).Member taskId := by
  constructor
  · intro hunchanged
    obtain ⟨hread, hrevision⟩ := replyProjection_unchanged hunchanged
    exact not_member_between hread hrevision
  · intro sharedTerminal hread hshared
    exact not_member_between hread (projectHolder_shared_of_unread hread hshared)

section Sample

attribute [local instance] plainCodec

/-- While other calls cancel and close joins, a Task that joined nothing is answered unchanged. -/
theorem reply_capture_is_free_of_aba_plainJoin :
    (after ([.closeJoins, .cancelHolder 20 6] ++ plainJoin)).replyProjection ((after plainJoin).captureReply 30)
      = .unchanged
    ∧ ((after ([.closeJoins, .cancelHolder 20 6] ++ plainJoin)).projectHolder
      ((after plainJoin).captureReply 30) true).1 = .shared
    ∧ ¬(after ([.cancelHolder 20 6] ++ plainJoin)).Member 30 := by
  have hunchanged : (after ([.closeJoins, .cancelHolder 20 6] ++ plainJoin)).replyProjection
      ((after plainJoin).captureReply 30) = .unchanged := by decide +kernel
  obtain ⟨hreply, -⟩ := reply_capture_is_free_of_aba plainJoin [.closeJoins, .cancelHolder 20 6] 30
  exact ⟨hunchanged, by decide +kernel, hreply hunchanged _ ⟨[.closeJoins], rfl⟩⟩

end Sample

end JoinState

end Unica.Runtime
