import Unica.Runtime.Holders

/-!
# Reads and mutations

A read takes the mutation epoch before it looks for live mutations and hands it to its
registration. A mutation closes all joins and raises the epoch. So whoever joins a read
joins one that began after every mutation that has been seen.
-/

namespace Unica.Runtime

open Lib Receipt Unica.Task List Call

namespace JoinState

section Frames

variable {s : JoinState} {taskId : TaskId} {identity : RequestIdentity}

/-- The epoch and the live mutations are what they were. -/
def SameBarrier (s s' : JoinState) : Prop := s'.mutations = s.mutations ∧ s'.mutationEpoch = s.mutationEpoch

theorem SameBarrier.refl (s : JoinState) : SameBarrier s s := ⟨rfl, rfl⟩

theorem membershipChanged_barrier : SameBarrier s s.membershipChanged := by
  unfold membershipChanged
  split <;> exact ⟨rfl, rfl⟩

theorem forgetSharedLocked_barrier : SameBarrier s (s.forgetSharedLocked taskId) := by
  unfold forgetSharedLocked
  split
  · exact membershipChanged_barrier
  · exact .refl s

theorem cancelIfReleased_barrier : SameBarrier s (s.cancelIfReleased taskId).2 := by
  rcases s.cancelIfReleased_cases taskId with heq | ⟨work, -, -, -, -, heq⟩
  · rw [heq]
    exact .refl s
  · rw [heq]
    exact ⟨rfl, rfl⟩

theorem cancelHolder_barrier {epochMs : EpochMs} : SameBarrier s (s.cancelHolder taskId epochMs).2 := by
  unfold cancelHolder
  split
  · exact cancelIfReleased_barrier
  · split
    · exact ⟨rfl, rfl⟩
    · exact cancelIfReleased_barrier

theorem setTerminalView_barrier {view : HolderTerminalView} : SameBarrier s (s.setTerminalView taskId view) := by
  unfold setTerminalView
  split
  · exact ⟨rfl, rfl⟩
  · split <;> exact ⟨rfl, rfl⟩

/-- Only mutations move the barrier. -/
theorem apply_barrier [ReceiptCodec] (call : Call) : (call.apply s).mutationEpoch
        = (if call.isMutation then wrappingAdd wordBound s.mutationEpoch 1 else s.mutationEpoch)
      ∧ (call.apply s).mutations = match call with
        | .trackMutation taskId => insert taskId s.mutations
        | .mutationFinished taskId => s.mutations.erase taskId
        | _ => s.mutations := by
  have hsame : ∀ s', SameBarrier s s' → s'.mutationEpoch = s.mutationEpoch ∧ s'.mutations = s.mutations :=
    fun s' h => ⟨h.2, h.1⟩
  cases call with try refine hsame _ ?_
  | registerLeader key deadline now startedWall observedEpoch =>
    rcases s.registerLeader_cases key deadline now startedWall observedEpoch with heq | ⟨-, -, heq⟩
    · rw [apply, heq]
      exact .refl s
    · rw [apply, heq]
      exact forgetSharedLocked_barrier
  | leaderSettled | closeJoins | trackMutation | mutationFinished => exact ⟨rfl, rfl⟩
  | candidate identity now =>
    unfold apply candidate
    dsimp only
    split
    · split <;> exact ⟨rfl, rfl⟩
    · exact .refl s
  | forgetLeader identity taskId =>
    unfold apply forgetLeader
    dsimp only
    split
    · split <;> exact ⟨rfl, rfl⟩
    · exact .refl s
  | attach identity leader joiner now =>
    rcases s.attach_cases identity leader joiner now with heq | ⟨candidate, joined, -, -, heq⟩
    · rw [apply, heq]
      exact .refl s
    · rw [apply, heq]
      exact membershipChanged_barrier
  | projectHolder captured sharedTerminal =>
    rcases s.projectHolder_cases captured sharedTerminal with heq | ⟨view, -, heq⟩
    · rw [apply, heq]
      exact .refl s
    · rw [apply, heq]
      exact setTerminalView_barrier
  | cancelHolder taskId epochMs => exact cancelHolder_barrier
  | cancelHolderInContext read epochMs =>
    unfold apply cancelHolderInContext
    dsimp only
    split
    · exact .refl s
    · split
      · exact .refl s
      · exact cancelHolder_barrier
  | forgetShared leader => exact forgetSharedLocked_barrier
  | forgetMissingContext read =>
    unfold apply forgetMissingContext
    dsimp only
    split
    · exact .refl s
    · split
      · exact forgetSharedLocked_barrier
      · exact .refl s

end Frames

section Histories

variable [ReceiptCodec]

/-- The epoch counts the mutations of the history. -/
theorem mutationEpoch_after (calls : List Call) :
    (after calls).mutationEpoch = calls.countP isMutation % wordBound := by
  induction calls with
  | nil => rfl
  | cons call earlier ih =>
    have hepoch := (apply_barrier (s := after earlier) call).1
    rw [after, hepoch, ih, countP_cons]
    split
    · rw [wrappingAdd, Nat.mod_add_mod]
    · rw [Nat.add_zero]

/-- The mutation was tracked and has not finished since. -/
def UnfinishedIn (calls : List Call) (taskId : TaskId) : Prop :=
  ∃ later earlier, calls = later ++ .trackMutation taskId :: earlier ∧ Call.mutationFinished taskId ∉ later

theorem mem_mutations_after {calls : List Call} {taskId : TaskId} (h : UnfinishedIn calls taskId) :
    taskId ∈ (after calls).mutations := by
  obtain ⟨later, earlier, rfl, hlater⟩ := h
  induction later with
  | nil =>
    exact Finset.mem_insert_self _ _
  | cons call later ih =>
    rw [mem_cons, not_or] at hlater
    have hmem := ih hlater.2
    have hmutations := (apply_barrier (s := after (later ++ .trackMutation taskId :: earlier)) call).2
    show taskId ∈ (call.apply (after (later ++ .trackMutation taskId :: earlier))).mutations
    rw [hmutations]
    split
    · exact Finset.mem_insert_of_mem hmem
    · rename_i finished
      exact Finset.mem_erase.mpr ⟨fun heq => hlater.1 (heq ▸ rfl), hmem⟩
    · exact hmem

/-- Two moments of a short history with one epoch have no mutation between them. -/
theorem no_mutation_between {between earlier : List Call}
    (hfew : (between ++ earlier).countP isMutation < wordBound)
    (hepoch : (after earlier).mutationEpoch = (after (between ++ earlier)).mutationEpoch) :
    ∀ call ∈ between, call.isMutation = false := by
  rw [mutationEpoch_after, mutationEpoch_after, countP_append] at hepoch
  rw [countP_append] at hfew
  rw [Nat.mod_eq_of_lt (by omega), Nat.mod_eq_of_lt hfew] at hepoch
  have hnone : between.countP isMutation = 0 := by omega
  simpa using countP_eq_zero.mp hnone

theorem registers_epoch {s : JoinState} {call : Call} {key : ReceiptKey} {observedEpoch : Nat}
    (h : call.Registers s key observedEpoch) : s.mutationEpoch = observedEpoch ∧ s.mutations = ∅ := by
  obtain ⟨deadline, now, startedWall, -, hregisters⟩ := h
  rcases s.registerLeader_cases key deadline now startedWall observedEpoch with heq | ⟨hepoch, hmutations, -⟩
  · rw [heq] at hregisters
    cases hregisters
  · exact ⟨hepoch, hmutations⟩

end Histories

/-- An attach that succeeds joins the last registration of its leader. From the moment the leader took
the epoch it registered with until the attach there is no mutation, none was unfinished when it
registered, and the identity the attach is given is the leader's. -/
theorem join_never_crosses_mutation [ReceiptCodec] (calls : List Call)
    (hfew : calls.countP Call.isMutation < wordBound) {identity : RequestIdentity} {leader : TaskId}
    {joiner : ReceiptKey} {now : Nat} {joined : JoinAlias}
    (hattach : ((after calls).attach identity leader joiner now).1 = some joined) :
    ∃ since call before key observedEpoch, calls = since ++ call :: before
      ∧ call.Registers (after before) key observedEpoch ∧ key.reservedTaskId = leader
      ∧ Undisturbed leader (call :: before) since ∧ requestIdentity key = identity
      ∧ (∀ taskId, ¬UnfinishedIn before taskId)
      ∧ ∀ between earliest, before = between ++ earliest → (after earliest).mutationEpoch = observedEpoch →
        ∀ call' ∈ since ++ call :: between, call'.isMutation = false := by
  rcases attach_cases (after calls) identity leader joiner now with heq | ⟨candidate, -, hattaches, -⟩
  · rw [heq] at hattach
    cases hattach
  · have hcandidate : (after (calls ++ [])).joinable.lookup identity = some candidate := by
      rw [append_nil]
      exact hattaches.candidate_eq
    rcases joinable_later calls hcandidate with ⟨⟨first, hfirst, -⟩, -⟩
      | ⟨since, call, before, key, observedEpoch, rfl, hregisters, hidentity, htask, hsince⟩
    · simp [after] at hfirst
    · rw [append_nil] at hregisters hsince
      rw [hattaches.leader_eq] at htask hsince
      obtain ⟨hepoch, hmutations⟩ := registers_epoch hregisters
      refine ⟨since, call, before, key, observedEpoch, rfl, hregisters, htask.symm, hsince, hidentity.symm, ?_, ?_⟩
      · intro taskId hunfinished
        have hmem := mem_mutations_after hunfinished
        rw [hmutations] at hmem
        simp at hmem
      · rintro between earliest rfl hobserved call' hmem
        rcases mem_append.mp hmem with hmem | hmem
        · exact hsince.isMutation_eq call' hmem
        rcases mem_cons.mp hmem with rfl | hmem
        · obtain ⟨deadline, now, startedWall, rfl, -⟩ := hregisters
          rfl
        · refine no_mutation_between ?_ (hobserved.trans hepoch.symm) call' hmem
          rw [countP_append, countP_cons] at hfew
          omega

section Sample

attribute [local instance] plainCodec

/-- A read that began after a finished mutation is joined. -/
theorem join_never_crosses_mutation_plainJoin :
    ((after (.registerLeader plainLeader ⟨0, 0, 0⟩ 0 0 1 :: [.mutationFinished 9, .trackMutation 9])).attach
      (requestIdentity plainLeader) 10 plainJoiner 0).1.isSome = true
    ∧ ∃ key, key.reservedTaskId = 10 ∧ requestIdentity key = requestIdentity plainLeader := by
  have hsome : ((after (.registerLeader plainLeader ⟨0, 0, 0⟩ 0 0 1 :: [.mutationFinished 9, .trackMutation 9])).attach
      (requestIdentity plainLeader) 10 plainJoiner 0).1.isSome = true := by decide +kernel
  obtain ⟨joined, hjoined⟩ := Option.isSome_iff_exists.mp hsome
  obtain ⟨-, -, -, key, -, -, -, htask, -, hidentity, -⟩ :=
    join_never_crosses_mutation _ (by decide +kernel) hjoined
  exact ⟨hsome, key, htask, hidentity⟩

/-- The registry does not compare the identity it is given with the joiner's key. -/
theorem attach_takes_identity_on_trust :
    ((after [.registerLeader plainLeader ⟨0, 0, 0⟩ 0 0 0]).attach (requestIdentity plainLeader) 10
      ⟨2, 20, 0, .docs, 0, 0⟩ 0).1.isSome = true
    ∧ requestIdentity ⟨2, 20, 0, .docs, 0, 0⟩ ≠ requestIdentity plainLeader := by
  decide +kernel

end Sample

end JoinState

end Unica.Runtime
