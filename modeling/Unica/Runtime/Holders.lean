import Unica.Runtime.JoiningRuns
import Unica.Task.Record

/-!
# What the holders of a shared Task are told

A reader captures its membership, reads the canonical Task without the lock and comes back
with what it captured. The registry compares the membership with the current one and keeps
the first terminal answer of a membership. The shared work itself is cancelled once, by the
last holder that gives it up.
-/

namespace Unica.Runtime

open Lib Receipt Unica.Task Option

/-- The same membership at a later moment. -/
structure HolderReadContext.Continues (c c' : HolderReadContext) : Prop where
  same : c'.sameMembership c
  requestedAt : ∀ epochMs, c.requestedAt = some epochMs → c'.requestedAt = some epochMs

theorem HolderReadContext.Continues.refl (c : HolderReadContext) : c.Continues c :=
  ⟨⟨rfl, rfl, rfl, rfl⟩, fun _ h => h⟩

theorem HolderReadContext.sameMembership.trans {c c' c'' : HolderReadContext}
    (h' : c''.sameMembership c') (h : c'.sameMembership c) : c''.sameMembership c := by
  obtain ⟨h1, h2, h3, h4⟩ := h
  obtain ⟨h1', h2', h3', h4'⟩ := h'
  exact ⟨h1'.trans h1, h2'.trans h2, h3'.trans h3, h4'.trans h4⟩

/-- What a holder that was told this is told again. -/
def HolderTerminalView.answer (view : HolderTerminalView) (sharedTerminal : Bool) : HolderProjection :=
  match view with
  | cancelled atEpochMs => .cancelled atEpochMs
  | shared => if sharedTerminal then .shared else .reload

variable {earlier : List Call} {generation : Nat}

namespace JoinState

variable {e : Effect} {s s' : JoinState} {taskId : TaskId} {c : HolderReadContext}
  {view : HolderTerminalView}

theorem context_of_alias {joined : JoinAlias} {work : SharedWork} (hjoined : s.aliases.lookup taskId = some joined)
    (hwork : s.shared.lookup joined.leader = some work) :
    s.context taskId
      = some ⟨joined.leader, joined.holder, work.holder, joined.generation, joined.cancelledAtEpochMs⟩ := by
  simp [context, hjoined, hwork]

theorem context_of_work {work : SharedWork} (haliases : s.aliases.lookup taskId = none)
    (hwork : s.shared.lookup taskId = some work) :
    s.context taskId
      = some ⟨taskId, work.holder, work.holder, work.generation, work.leaderReleasedAtEpochMs⟩ := by
  simp [context, haliases, hwork]

/-- A holder is an alias of shared work or the leader of its own. -/
theorem context_cases (h : s.context taskId = some c) :
    (∃ joined work, s.aliases.lookup taskId = some joined ∧ s.shared.lookup joined.leader = some work
      ∧ c = ⟨joined.leader, joined.holder, work.holder, joined.generation, joined.cancelledAtEpochMs⟩)
    ∨ ∃ work, s.aliases.lookup taskId = none ∧ s.shared.lookup taskId = some work
      ∧ c = ⟨taskId, work.holder, work.holder, work.generation, work.leaderReleasedAtEpochMs⟩ := by
  unfold context at h
  cases hjoined : s.aliases.lookup taskId with
  | some joined =>
    rw [hjoined] at h
    obtain ⟨work, hwork, rfl⟩ := map_eq_some_iff.mp h
    exact .inl ⟨joined, work, rfl, hwork, rfl⟩
  | none =>
    rw [hjoined] at h
    obtain ⟨work, hwork, rfl⟩ := map_eq_some_iff.mp h
    exact .inr ⟨work, rfl, hwork, rfl⟩

section

variable (h : s.Coherent) (hc : s.context taskId = some c)
include h hc

/-- A membership belongs to a generation that is not over. -/
theorem Coherent.not_over : ¬s.Over c.generation := by
  intro hover
  rcases context_cases hc with ⟨joined, work, hjoined, hwork, rfl⟩ | ⟨work, -, hwork, rfl⟩
  · obtain ⟨work', hwork', -, hgeneration⟩ := h.aliases.aliased hjoined
    exact hover.dead (.inr ⟨joined.leader, work', hwork', hgeneration.symm⟩)
  · exact hover.dead (.inr ⟨taskId, work, hwork, rfl⟩)

/-- One change keeps a membership with what its holder was told, or ends its generation. -/
theorem Coherent.context_change (hchange : Change e s s') :
    (∃ c', s'.context taskId = some c' ∧ c.Continues c'
      ∧ ∀ view, s.terminalView taskId = some view → s'.terminalView taskId = some view)
    ∨ s'.Over c.generation := by
  rcases context_cases hc with ⟨joined, work, hjoined, hwork, rfl⟩ | ⟨work, haliases, hwork, rfl⟩
  · obtain ⟨work', hwork', -, hgeneration⟩ := h.aliases.aliased hjoined
    obtain rfl := some.inj (hwork.symm.trans hwork')
    rcases h.alias_change hjoined hchange with ⟨joined', hjoined', hgrows⟩ | hover
    · rcases h.work_change hwork hchange with ⟨work', hwork', hkept, -⟩ | hover
      · left
        have hleader := hgrows.leader
        rw [← hleader] at hwork'
        refine ⟨_, context_of_alias hjoined' hwork', ⟨⟨hleader, hgrows.holder, hkept.holder, hgrows.generation⟩,
          hgrows.cancelledAt⟩, ?_⟩
        simpa only [terminalView, hjoined, hjoined'] using hgrows.terminalView
      · exact .inr (hgeneration ▸ hover)
    · exact .inr hover
  · rcases h.work_change hwork hchange with ⟨work', hwork', hkept, hnone⟩ | hover
    · left
      have haliases' := hnone haliases
      refine ⟨_, context_of_work haliases' hwork', ⟨⟨rfl, hkept.holder, hkept.holder, hkept.generation⟩,
        hkept.releasedAt⟩, ?_⟩
      simpa only [terminalView, haliases, haliases', hwork, hwork', bind_some] using hkept.terminalView
    · exact .inr hover

theorem Coherent.context_changes (hchanges : Changes e s s') :
    (∃ c', s'.context taskId = some c' ∧ c.Continues c'
      ∧ ∀ view, s.terminalView taskId = some view → s'.terminalView taskId = some view)
    ∨ s'.Over c.generation := by
  induction hchanges with
  | refl => exact .inl ⟨c, hc, .refl c, fun _ h => h⟩
  | tail hchanges hchange ih =>
    rcases ih with ⟨c', hc', hcontinues, hview⟩ | hover
    · rcases (h.changes hchanges).context_change hc' hchange with ⟨c'', hc'', hcontinues', hview'⟩ | hover
      · exact .inl ⟨c'', hc'', ⟨hcontinues'.same.trans hcontinues.same,
          fun t ht => hcontinues'.requestedAt t (hcontinues.requestedAt t ht)⟩,
          fun view h => hview' view (hview view h)⟩
      · exact .inr (hcontinues.same.2.2.2 ▸ hover)
    · exact .inr (hover.change hchange)

end

section Histories

variable [ReceiptCodec]

theorem over_later (h : (after earlier).Over generation)
    (later : List Call) : (after (later ++ earlier)).Over generation := by
  induction later with
  | nil => exact h
  | cons call later ih => exact ih.changes (apply_changes call)

/-- Over a whole history a membership stays, or its generation is over for good. -/
theorem context_later (hc : (after earlier).context taskId = some c) (later : List Call) :
    (∃ c', (after (later ++ earlier)).context taskId = some c' ∧ c.Continues c'
      ∧ ∀ view, (after earlier).terminalView taskId = some view →
        (after (later ++ earlier)).terminalView taskId = some view)
    ∨ (after (later ++ earlier)).Over c.generation := by
  induction later with
  | nil => exact .inl ⟨c, hc, .refl c, fun _ h => h⟩
  | cons call later ih =>
    have hchanges := apply_changes (s := after (later ++ earlier)) call
    rcases ih with ⟨c', hc', hcontinues, hview⟩ | hover
    · rcases (coherent_after _).context_changes hc' hchanges with ⟨c'', hc'', hcontinues', hview'⟩ | hover
      · exact .inl ⟨c'', hc'', ⟨hcontinues'.same.trans hcontinues.same,
          fun t ht => hcontinues'.requestedAt t (hcontinues.requestedAt t ht)⟩,
          fun view h => hview' view (hview view h)⟩
      · exact .inr (hcontinues.same.2.2.2 ▸ hover)
    · exact .inr (hover.changes hchanges)

end Histories

/-! ## The terminal of a holder -/


/-- A first terminal answer changes the view of its holder and nothing about its membership. -/
theorem setTerminalView_self (hc : s.context taskId = some c) (view : HolderTerminalView) :
    (s.setTerminalView taskId view).context taskId = some c
      ∧ (s.setTerminalView taskId view).terminalView taskId = some view := by
  rcases context_cases hc with ⟨joined, work, hjoined, hwork, rfl⟩ | ⟨work, haliases, hwork, rfl⟩
  · simp [setTerminalView, hjoined, context, terminalView, hwork]
  · simp [setTerminalView, haliases, hwork, context, terminalView]

section Project

variable {captured : HolderReplyContext} {read : HolderReadContext} {sharedTerminal : Bool}

/-- A context whose membership is not the current one is retired and changes nothing. -/
theorem projectHolder_retired (hread : captured.read = some read)
    (h : ∀ current, s.context captured.taskId = some current → ¬current.sameMembership read) :
    s.projectHolder captured sharedTerminal = (.retired, s) := by
  unfold projectHolder
  rw [hread]
  cases hcurrent : s.context captured.taskId with
  | none => rfl
  | some current => exact if_pos (h current hcurrent)

/-- A terminal answer comes from the current membership and is its view from then on. -/
theorem projectHolder_terminal (hread : captured.read = some read)
    (h : (∃ atEpochMs, view = .cancelled atEpochMs
        ∧ (s.projectHolder captured sharedTerminal).1 = .cancelled atEpochMs)
      ∨ view = .shared ∧ sharedTerminal = true ∧ (s.projectHolder captured sharedTerminal).1 = .shared) :
    ∃ current, (s.projectHolder captured sharedTerminal).2.context captured.taskId = some current
      ∧ current.sameMembership read
      ∧ (s.projectHolder captured sharedTerminal).2.terminalView captured.taskId = some view := by
  unfold projectHolder at h ⊢
  rw [hread] at h ⊢
  cases hcurrent : s.context captured.taskId with
  | none => simp [hcurrent] at h
  | some current =>
    simp only [hcurrent] at h ⊢
    by_cases hsame : current.sameMembership read
    · simp only [hsame, not_true, if_false] at h ⊢
      cases hview : s.terminalView captured.taskId with
      | some old =>
        cases old with
        | cancelled atEpochMs =>
          rw [hview] at h
          rcases h with ⟨_, rfl, heq⟩ | ⟨-, -, heq⟩
          · cases heq
            exact ⟨current, hcurrent, hsame, hview⟩
          · cases heq
        | shared =>
          simp only [hview] at h
          rcases h with ⟨_, -, heq⟩ | ⟨rfl, hterminal, -⟩
          · cases sharedTerminal <;> cases heq
          · exact ⟨current, hcurrent, hsame, hview⟩
      | none =>
        simp only [hview] at h
        cases sharedTerminal with
        | true =>
          rcases h with ⟨_, -, heq⟩ | ⟨rfl, -, -⟩
          · cases heq
          · have hset := setTerminalView_self hcurrent .shared
            exact ⟨current, hset.1, hsame, hset.2⟩
        | false =>
          obtain ⟨atEpochMs, rfl, heq⟩ | ⟨-, hterminal, -⟩ := h
          · by_cases hrequested : current.requestedAt = read.requestedAt
            · rw [if_neg (by simp), if_neg (by simp [hrequested])] at heq
              cases hat : current.requestedAt with
              | none => simp [hat] at heq
              | some at' =>
                rw [hat] at heq
                cases heq
                have hset := setTerminalView_self hcurrent (.cancelled atEpochMs)
                rw [hat] at hrequested
                simp only [Bool.false_eq_true, if_false, ← hrequested, ne_eq, not_true]
                exact ⟨current, hset.1, hsame, hset.2⟩
            · simp [hrequested] at heq
          · cases hterminal
    · simp [hsame] at h

end Project

section Histories

variable [ReceiptCodec] {earlier : List Call} {captured : HolderReplyContext}

theorem projectHolder_over {read : HolderReadContext} {sharedTerminal : Bool}
    (h : (after earlier).Over read.generation) (hread : captured.read = some read) :
    (after earlier).projectHolder captured sharedTerminal = (.retired, after earlier) := by
  refine projectHolder_retired hread fun current hcurrent hsame => ?_
  exact (coherent_after earlier).not_over hcurrent (hsame.2.2.2 ▸ h)

/-- Once a membership has a view, later calls of its generation answer from it. -/
theorem projectHolder_later (earlier later : List Call) {c : HolderReadContext}
    (hc : (after earlier).context captured.taskId = some c)
    (hview : (after earlier).terminalView captured.taskId = some view) {captured' : HolderReplyContext} {read' : HolderReadContext} (htask : captured'.taskId = captured.taskId)
    (hread' : captured'.read = some read') (hgeneration : read'.generation = c.generation)
    (sharedTerminal : Bool) :
    ((after (later ++ earlier)).projectHolder captured' sharedTerminal).1 = view.answer sharedTerminal
      ∨ ((after (later ++ earlier)).projectHolder captured' sharedTerminal).1 = .retired := by
  rcases context_later hc later with ⟨c', hc', -, hkept⟩ | hover
  · rw [← htask] at hc'
    have hview' := hkept view hview
    rw [← htask] at hview'
    by_cases hsame : c'.sameMembership read'
    · left
      simp only [projectHolder, hread', hc', hsame, not_true, if_false, hview']
      cases view <;> rfl
    · refine .inr (congrArg Prod.fst (projectHolder_retired hread' fun current hcurrent => ?_))
      obtain rfl := some.inj (hc'.symm.trans hcurrent)
      exact hsame
  · exact .inr (congrArg Prod.fst (projectHolder_over (hgeneration ▸ hover) hread'))

end Histories

/-- A holder's terminal never flips. `captured` is any context of a generation, however it was come
by and however late it is used; the last two parts are about a context of a membership that is not
the current one. -/
theorem holder_terminal_never_flips [ReceiptCodec] (earlier : List Call) (captured : HolderReplyContext)
    (read : HolderReadContext) (hread : captured.read = some read) :
    (∀ terminal atEpochMs, ((after earlier).projectHolder captured terminal).1 = .cancelled atEpochMs →
      ∀ later captured' read' terminal', captured'.taskId = captured.taskId → captured'.read = some read' →
        read'.generation = read.generation →
        ((after (later ++ .projectHolder captured terminal :: earlier)).projectHolder captured' terminal').1
            = .cancelled atEpochMs
          ∨ ((after (later ++ .projectHolder captured terminal :: earlier)).projectHolder captured' terminal').1
            = .retired)
    ∧ (((after earlier).projectHolder captured true).1 = .shared →
      ∀ later captured' read' terminal' atEpochMs, captured'.taskId = captured.taskId →
        captured'.read = some read' → read'.generation = read.generation →
        ((after (later ++ .projectHolder captured true :: earlier)).projectHolder captured' terminal').1
          ≠ .cancelled atEpochMs)
    ∧ (∀ terminal, (∀ current, (after earlier).context captured.taskId = some current →
        current.generation ≠ read.generation ∨ current.holder ≠ read.holder) →
      (after earlier).projectHolder captured terminal = (.retired, after earlier))
    ∧ ∀ before since, earlier = since ++ before → captured = (after before).captureReply captured.taskId →
      (∀ current, (after earlier).context captured.taskId = some current → ¬current.sameMembership read) →
      ∀ later terminal, (after (later ++ earlier)).projectHolder captured terminal
        = (.retired, after (later ++ earlier)) := by
  refine ⟨?_, ?_, ?_, ?_⟩
  · intro terminal atEpochMs hcancelled later captured' read' terminal' htask hread' hgeneration
    obtain ⟨current, hcurrent, hsame, hview⟩ :=
      projectHolder_terminal hread (.inl ⟨atEpochMs, rfl, hcancelled⟩)
    exact projectHolder_later (.projectHolder captured terminal :: earlier) later hcurrent hview htask
      hread' (hgeneration.trans hsame.2.2.2.symm) terminal'
  · intro hshared later captured' read' terminal' atEpochMs htask hread' hgeneration
    obtain ⟨current, hcurrent, hsame, hview⟩ := projectHolder_terminal hread (.inr ⟨rfl, rfl, hshared⟩)
    rcases projectHolder_later (.projectHolder captured true :: earlier) later hcurrent hview htask
      hread' (hgeneration.trans hsame.2.2.2.symm) terminal' with heq | heq
    · rw [heq]
      cases terminal' <;> simp [HolderTerminalView.answer]
    · rw [heq]
      nofun
  · intro terminal hforeign
    refine projectHolder_retired hread fun current hcurrent hsame => ?_
    exact (hforeign current hcurrent).elim (fun h => h hsame.2.2.2) fun h => h hsame.2.1
  · rintro before since rfl hcaptured hstale later terminal
    have hbefore : (after before).context captured.taskId = some read := by
      rw [hcaptured] at hread
      exact hread
    rcases context_later hbefore since with ⟨c', hc', hcontinues, -⟩ | hover
    · exact absurd hcontinues.same (hstale c' hc')
    · exact projectHolder_over (over_later hover later) hread

/-! ## The cancel of the shared work -/

/-- While a cancel is recorded, no membership comes or goes. -/
theorem Changes.members (h : Changes e s s') (hcancels : e.cancels ≠ none) :
    (∀ {taskId joined'}, s'.aliases.lookup taskId = some joined' →
      ∃ joined, s.aliases.lookup taskId = some joined ∧ joined.generation = joined'.generation)
    ∧ (∀ {leader work'}, s'.shared.lookup leader = some work' →
      ∃ work, s.shared.lookup leader = some work ∧ work.generation = work'.generation)
    ∧ ∀ {taskId}, s'.aliases.lookup taskId = none → s.aliases.lookup taskId = none := by
  induction h with
  | refl => exact ⟨fun h => ⟨_, h, rfl⟩, fun h => ⟨_, h, rfl⟩, id⟩
  | tail _ hchange ih =>
    cases hchange with
    | rest => grind
    | forget hquiet | attach _ _ hquiet => exact absurd hquiet hcancels
    | register => grind
    | growAlias _ _ hgrows | growWork _ _ hgrows =>
      have hgeneration := hgrows.generation
      grind

/-- A cancel found in `s'` was there in `s` or is recorded by the event. -/
abbrev Released (e : Effect) (s s' : JoinState) : Prop :=
  (∀ {taskId joined'}, s'.aliases.lookup taskId = some joined' → joined'.cancelledAtEpochMs ≠ none →
    ∃ joined, s.aliases.lookup taskId = some joined ∧ joined.generation = joined'.generation
      ∧ (joined.cancelledAtEpochMs ≠ none ∨ e.cancels = some taskId))
  ∧ ∀ {leader work'}, s'.shared.lookup leader = some work' → work'.leaderReleasedAtEpochMs ≠ none →
    ∃ work, s.shared.lookup leader = some work ∧ work.generation = work'.generation
      ∧ (work.leaderReleasedAtEpochMs ≠ none ∨ e.cancels = some leader ∧ s.aliases.lookup leader = none)

theorem Change.released (h : Change e s s') : Released e s s' := by
  cases h with
  | growAlias _ _ hgrows | growWork _ _ hgrows =>
    have hgeneration := hgrows.generation
    grind
  | _ => grind

theorem Changes.released (h : Changes e s s') : Released e s s' := by
  induction h with
  | refl => exact ⟨fun h hcancel => ⟨_, h, rfl, .inl hcancel⟩, fun h hcancel => ⟨_, h, rfl, .inl hcancel⟩⟩
  | tail hchanges hchange ih =>
    obtain ⟨ihaliases, ihshared⟩ := ih
    obtain ⟨haliases, hshared⟩ := hchange.released
    refine ⟨fun {taskId joined''} h'' hcancel => ?_, fun {leader work''} h'' hcancel => ?_⟩
    · obtain ⟨joined', h', hgeneration', hold | hnew⟩ := haliases h'' hcancel
      · obtain ⟨joined, h, hgeneration, hwhy⟩ := ihaliases h' hold
        exact ⟨joined, h, hgeneration.trans hgeneration', hwhy⟩
      · obtain ⟨joined, h, hgeneration⟩ := (members hchanges (by simp [hnew])).1 h'
        exact ⟨joined, h, hgeneration.trans hgeneration', .inr hnew⟩
    · obtain ⟨work', h', hgeneration', hold | ⟨hnew, hnone⟩⟩ := hshared h'' hcancel
      · obtain ⟨work, h, hgeneration, hwhy⟩ := ihshared h' hold
        exact ⟨work, h, hgeneration.trans hgeneration', hwhy⟩
      · obtain ⟨-, hworked, hnone'⟩ := members hchanges (by simp [hnew])
        obtain ⟨work, h, hgeneration⟩ := hworked h'
        exact ⟨work, h, hgeneration.trans hgeneration', .inr ⟨hnew, hnone' hnone⟩⟩

section Histories

variable [ReceiptCodec]

/-- The history holds a cancel of this holder that was taken while it was of this generation. -/
def CancelledIn (calls : List Call) (taskId : TaskId) (generation : Nat) : Prop :=
  ∃ later call earlier c, calls = later ++ call :: earlier
    ∧ (call.effect (after earlier)).cancels = some taskId ∧ (after earlier).context taskId = some c
    ∧ c.generation = generation

theorem CancelledIn.cons {calls : List Call} (h : CancelledIn calls taskId generation)
    (call : Call) : CancelledIn (call :: calls) taskId generation := by
  obtain ⟨later, call', earlier, c, rfl, hcall⟩ := h
  exact ⟨call :: later, call', earlier, c, rfl, hcall⟩

/-- Every recorded cancel was asked for by its holder. -/
theorem cancelledIn_of_released (calls : List Call) :
    (∀ {taskId joined}, (after calls).aliases.lookup taskId = some joined → joined.cancelledAtEpochMs ≠ none →
      CancelledIn calls taskId joined.generation)
    ∧ ∀ {leader work}, (after calls).shared.lookup leader = some work → work.leaderReleasedAtEpochMs ≠ none →
      CancelledIn calls leader work.generation := by
  induction calls with
  | nil => exact ⟨by simp [after], by simp [after]⟩
  | cons call earlier ih =>
    obtain ⟨haliases, hshared⟩ := Changes.released (apply_changes call)
    refine ⟨fun {taskId joined'} h' hcancel => ?_, fun {leader work'} h' hcancel => ?_⟩
    · obtain ⟨joined, h, hgeneration, hold | hnew⟩ := haliases h' hcancel
      · exact hgeneration ▸ (ih.1 h hold).cons call
      · obtain ⟨work, hwork, -, -⟩ := (coherent_after earlier).aliases.aliased h
        exact ⟨[], call, earlier, _, rfl, hnew, context_of_alias h hwork, hgeneration⟩
    · obtain ⟨work, h, hgeneration, hold | ⟨hnew, hnone⟩⟩ := hshared h' hcancel
      · exact hgeneration ▸ (ih.2 h hold).cons call
      · exact ⟨[], call, earlier, _, rfl, hnew, context_of_work hnone h, hgeneration⟩

end Histories

/-- The shared work of this leader has been cancelled by all its holders. -/
structure Issued (s : JoinState) (leader : TaskId) (generation : Nat) : Prop where
  work : ∃ work, s.shared.lookup leader = some work ∧ work.generation = generation
    ∧ work.cancelIssued = true ∧ work.leaderReleasedAtEpochMs ≠ none
  aliases : ∀ {taskId joined}, s.aliases.lookup taskId = some joined → joined.leader = leader →
    joined.cancelledAtEpochMs ≠ none

theorem cancelIfReleased_cases (s : JoinState) (leader : TaskId) :
    s.cancelIfReleased leader = (.released, s)
    ∨ ∃ work, s.shared.lookup leader = some work ∧ work.cancelIssued = false
      ∧ work.leaderReleasedAtEpochMs.isSome = true
      ∧ (∀ joiner ∈ work.joiners, (s.aliases.lookup joiner).all (·.cancelledAtEpochMs.isSome) = true)
      ∧ s.cancelIfReleased leader = (.cancelShared leader,
        forgetLeaderTask { s with shared := s.shared.insert leader { work with cancelIssued := true } } leader) := by
  unfold cancelIfReleased
  cases hwork : s.shared.lookup leader with
  | none => exact .inl rfl
  | some work =>
    dsimp only
    split
    · exact .inl rfl
    · rename_i hall
      simp only [not_or, not_not, Bool.and_eq_true, List.all_eq_true, Bool.not_eq_true] at hall
      obtain ⟨⟨hreleased, hjoiners⟩, hissued⟩ := hall
      exact .inr ⟨work, rfl, hissued, hreleased, hjoiners, rfl⟩

/-- The work is cancelled when the last of its holders has given it up, and nobody joins it then. -/
theorem Coherent.cancelIfReleased (h : s.Coherent) {leader leader' : TaskId}
    (hcancel : (s.cancelIfReleased leader).1 = .cancelShared leader') :
    leader' = leader ∧ ∃ work, s.shared.lookup leader = some work ∧ work.cancelIssued = false
      ∧ (s.cancelIfReleased leader).2.Issued leader work.generation
      ∧ ∀ identity other, (s.cancelIfReleased leader).2.joinable.lookup identity = some other →
        other.taskId ≠ leader := by
  rcases s.cancelIfReleased_cases leader with heq | ⟨work, hwork, hissued, hreleased, hjoiners, heq⟩
  · rw [heq] at hcancel
    cases hcancel
  · rw [heq] at hcancel ⊢
    cases hcancel
    refine ⟨rfl, work, hwork, hissued, ⟨⟨_, Finmap.lookup_insert _, rfl, rfl, ?_⟩, ?_⟩,
      fun _ _ hother => forgetLeaderTask_gone hother⟩
    · exact isSome_iff_ne_none.mp hreleased
    · intro taskId joined (hjoined : s.aliases.lookup taskId = some joined) hleader
      obtain ⟨work', hwork', hmem, -⟩ := h.aliases.aliased hjoined
      rw [hleader, hwork] at hwork'
      cases hwork'
      have hall := hjoiners taskId hmem
      rw [hjoined] at hall
      exact isSome_iff_ne_none.mp hall

/-- A cancel that cancels the work of `leader` finds no shared work of it, or is the first of its
generation that finds all holders gone. -/
theorem Coherent.cancelHolder (h : s.Coherent) {leader : TaskId} {epochMs : EpochMs}
    (hcancel : (s.cancelHolder taskId epochMs).1 = .cancelShared leader) :
    (∀ identity other, (s.cancelHolder taskId epochMs).2.joinable.lookup identity = some other →
      other.taskId ≠ leader)
    ∧ ∀ work, s.shared.lookup leader = some work → work.cancelIssued = false
      ∧ (s.cancelHolder taskId epochMs).2.Issued leader work.generation := by
  rcases s.cancelHolder_cases taskId epochMs with ⟨-, hshared, heq⟩ | ⟨leader', recorded, hchange, hkept, heq⟩
  · rw [heq] at hcancel ⊢
    cases hcancel
    refine ⟨fun _ _ hother => forgetLeaderTask_gone hother, fun work hwork => ?_⟩
    rw [hshared] at hwork
    cases hwork
  · rw [heq] at hcancel ⊢
    obtain ⟨rfl, work', hwork', hissued, hall, hgone⟩ := (h.change hchange).cancelIfReleased hcancel
    refine ⟨hgone, fun work hwork => ?_⟩
    obtain ⟨work'', hwork'', hgeneration, hissued'⟩ := hkept _ work hwork
    obtain rfl := some.inj (hwork'.symm.trans hwork'')
    exact ⟨hissued' ▸ hissued, hgeneration ▸ hall⟩

end JoinState

/-- What a cancel call answers; `none` for the other calls and for a retired context. -/
def Call.cancelAnswer (s : JoinState) : Call → Option HolderCancel
  | cancelHolder taskId epochMs => some (s.cancelHolder taskId epochMs).1
  | cancelHolderInContext read epochMs => (s.cancelHolderInContext read epochMs).1
  | _ => none

namespace JoinState

/-- A cancel call that answers is a cancel of one holder. -/
theorem cancelAnswer_cases [ReceiptCodec] {call : Call} {cancel : HolderCancel}
    (h : call.cancelAnswer s = some cancel) :
    ∃ taskId epochMs, cancel = (s.cancelHolder taskId epochMs).1
      ∧ call.apply s = (s.cancelHolder taskId epochMs).2 := by
  cases call with
  | cancelHolder taskId epochMs => exact ⟨taskId, epochMs, (some.inj h).symm, rfl⟩
  | cancelHolderInContext read epochMs =>
    refine ⟨read.holder.taskId, epochMs, ?_⟩
    unfold Call.cancelAnswer cancelHolderInContext at h
    unfold Call.apply cancelHolderInContext
    cases hcurrent : s.context read.holder.taskId with
    | none => simp [hcurrent] at h
    | some current =>
      by_cases hsame : current.sameMembership read
      · simp only [hcurrent, hsame, not_true, if_false, some.injEq] at h ⊢
        exact ⟨h.symm, trivial⟩
      · simp [hcurrent, hsame] at h
  | _ => cases h

/-- Issued work stays issued until its generation is over. -/
theorem Issued.later [ReceiptCodec] {leader : TaskId}
    (h : (after earlier).Issued leader generation) (later : List Call) :
    (∃ work, (after (later ++ earlier)).shared.lookup leader = some work ∧ work.generation = generation
      ∧ work.cancelIssued = true) ∨ (after (later ++ earlier)).Over generation := by
  induction later with
  | nil =>
    obtain ⟨work, hwork, hgeneration, hissued, -⟩ := h.work
    exact .inl ⟨work, hwork, hgeneration, hissued⟩
  | cons call later ih =>
    have hchanges := apply_changes (s := after (later ++ earlier)) call
    rcases ih with ⟨work, hwork, rfl, hissued⟩ | hover
    · rcases (coherent_after _).work_changes hwork hchanges with ⟨work', hwork', hgrows⟩ | hover
      · exact .inl ⟨work', hwork', hgrows.generation, hgrows.cancelIssued hissued⟩
      · exact .inr hover
    · exact .inr (hover.changes hchanges)

/-- Aliases and joiners stay inverse; the work of a leader with joiners is cancelled at most once in a
generation, and only when the leader and all its aliases have asked for it while they held it; and a
leader whose work was cancelled is joined again only after it was registered again. -/
theorem shared_work_cancelled_by_everyone [ReceiptCodec] (calls : List Call) :
    (∀ leader taskId, (∃ joined, (after calls).aliases.lookup taskId = some joined ∧ joined.leader = leader)
      ↔ ∃ work, (after calls).shared.lookup leader = some work ∧ taskId ∈ work.joiners)
    ∧ (∀ leader work, (after calls).shared.lookup leader = some work → work.joiners.Nodup
      ∧ ∀ taskId joined, (after calls).aliases.lookup taskId = some joined → joined.leader = leader →
        joined.generation = work.generation)
    ∧ ∀ call leader, call.cancelAnswer (after calls) = some (.cancelShared leader) →
      (∀ work, (after calls).shared.lookup leader = some work →
        CancelledIn (call :: calls) leader work.generation
        ∧ (∀ taskId joined, (after calls).aliases.lookup taskId = some joined → joined.leader = leader →
          CancelledIn (call :: calls) taskId work.generation)
        ∧ ∀ (later : List Call) (call' : Call) work', call'.cancelAnswer (after (later ++ call :: calls)) = some (.cancelShared leader) →
          (after (later ++ call :: calls)).shared.lookup leader = some work' →
          work'.generation ≠ work.generation)
      ∧ ∀ later identity joiner now joined,
        ((after (later ++ call :: calls)).attach identity leader joiner now).1 = some joined →
        ∃ (since : List Call) (call' : Call) (before : List Call) (key : ReceiptKey) (observedEpoch : Nat),
          later = since ++ call' :: before ∧ call'.Registers (after (before ++ call :: calls)) key observedEpoch
            ∧ key.reservedTaskId = leader := by
  have hcoherent := coherent_after calls
  refine ⟨fun leader taskId => ⟨?_, ?_⟩, fun leader work hwork => ⟨(hcoherent.aliases.nodup hwork).1, ?_⟩, ?_⟩
  · rintro ⟨joined, hjoined, rfl⟩
    obtain ⟨work, hwork, hmem, -⟩ := hcoherent.aliases.aliased hjoined
    exact ⟨work, hwork, hmem⟩
  · rintro ⟨work, hwork, hmem⟩
    exact hcoherent.aliases.joined hwork hmem
  · rintro taskId joined hjoined rfl
    obtain ⟨work', hwork', -, hgeneration⟩ := hcoherent.aliases.aliased hjoined
    rw [hwork] at hwork'
    cases hwork'
    exact hgeneration
  · intro call leader hanswer
    obtain ⟨taskId, epochMs, hcancel, happly⟩ := cancelAnswer_cases hanswer
    obtain ⟨hgone, hfirst⟩ := hcoherent.cancelHolder hcancel.symm
    rw [← happly] at hgone
    refine ⟨fun work hwork => ?_, ?_⟩
    · obtain ⟨-, hissued⟩ := hfirst work hwork
      rw [← happly] at hissued
      have hissued : (after (call :: calls)).Issued leader work.generation := hissued
      obtain ⟨hcancelled, hreleased⟩ := cancelledIn_of_released (call :: calls)
      obtain ⟨work', hwork', hgeneration', -, hleader⟩ := hissued.work
      refine ⟨hgeneration' ▸ hreleased hwork' hleader, ?_, ?_⟩
      · rintro taskId joined hjoined rfl
        obtain ⟨work'', hwork'', -, hgeneration⟩ := hcoherent.aliases.aliased hjoined
        obtain rfl := some.inj (hwork.symm.trans hwork'')
        rcases hcoherent.alias_changes hjoined (apply_changes call) with ⟨joined', hjoined', hgrows⟩ | hover
        · rw [← hgeneration, ← hgrows.generation]
          exact hcancelled hjoined' (hissued.aliases hjoined' hgrows.leader)
        · rw [hgeneration, ← hgeneration'] at hover
          exact absurd (.inr ⟨_, work', hwork', rfl⟩) hover.dead
      · intro later call' again hanswer' hagain heq
        obtain ⟨taskId', epochMs', hcancel', -⟩ := cancelAnswer_cases hanswer'
        obtain ⟨-, hfirst'⟩ := (coherent_after _).cancelHolder hcancel'.symm
        obtain ⟨hunissued, -⟩ := hfirst' again hagain
        rcases hissued.later later with ⟨kept, hkept, -, hstill⟩ | hover
        · obtain rfl := some.inj (hagain.symm.trans hkept)
          simp [hunissued] at hstill
        · exact hover.dead (.inr ⟨leader, again, hagain, heq⟩)
    · intro later identity joiner now joined hattach
      rcases attach_cases (after (later ++ call :: calls)) identity leader joiner now with
        heq | ⟨candidate, -, hattaches, -⟩
      · rw [heq] at hattach
        cases hattach
      · rcases joinable_later later hattaches.candidate_eq with ⟨⟨first, hold, htask⟩, -⟩
          | ⟨since, call', before, key, observedEpoch, hlater, hregisters, -, htask, -⟩
        · exact absurd (htask ▸ hattaches.leader_eq) (hgone identity first hold)
        · exact ⟨since, call', before, key, observedEpoch, hlater, hregisters,
            htask.symm.trans hattaches.leader_eq⟩

section Sample

attribute [local instance] plainCodec

def plainLeader : ReceiptKey := ⟨1, 10, 0, .search, 0, 0⟩
def plainJoiner : ReceiptKey := ⟨2, 20, 0, .search, 0, 0⟩

/-- One read joined by another, the newest call first. -/
def plainJoin : List Call :=
  [.attach (requestIdentity plainLeader) 10 plainJoiner 0, .registerLeader plainLeader ⟨0, 0, 0⟩ 0 0 0]

/-- The leader lets the work go first, then the joiner. -/
theorem shared_work_cancelled_by_everyone_plainJoin :
    (Call.cancelHolder 20 6).cancelAnswer (after (.cancelHolder 10 5 :: plainJoin)) = some (.cancelShared 10)
    ∧ CancelledIn (.cancelHolder 20 6 :: .cancelHolder 10 5 :: plainJoin) 10 0
    ∧ ((after (.cancelHolder 20 6 :: .cancelHolder 10 5 :: plainJoin)).attach (requestIdentity plainLeader) 10
      ⟨3, 30, 0, .search, 0, 0⟩ 0).1 = none := by
  obtain ⟨-, -, hcancel⟩ := shared_work_cancelled_by_everyone (.cancelHolder 10 5 :: plainJoin)
  have hanswer : (Call.cancelHolder 20 6).cancelAnswer (after (.cancelHolder 10 5 :: plainJoin))
      = some (.cancelShared 10) := by decide +kernel
  obtain ⟨hall, hattach⟩ := hcancel (.cancelHolder 20 6) 10 hanswer
  refine ⟨hanswer, (hall ⟨⟨10, 1, 1⟩, 0, none, some 5, false, [20]⟩ (by decide +kernel)).1, ?_⟩
  refine eq_none_iff_forall_ne_some.mpr fun joined hjoined => ?_
  obtain ⟨since, call, before, key, observedEpoch, hlater, -⟩ := hattach [] _ _ _ joined hjoined
  simp at hlater

/-- The joiner after it gave the read up. -/
def plainReleased : HolderReplyContext := ⟨20, some ⟨10, ⟨20, 2, 2⟩, ⟨10, 1, 1⟩, 0, some 6⟩, some 1⟩

/-- The joiner is told that it cancelled, and a reader that comes back later is told the same. -/
theorem holder_terminal_never_flips_plainJoin :
    plainReleased = (after (.cancelHolder 20 6 :: plainJoin)).captureReply 20
    ∧ ((after (.cancelHolder 20 6 :: plainJoin)).projectHolder plainReleased false).1 = .cancelled 6
    ∧ ((after (.projectHolder plainReleased false :: .cancelHolder 20 6 :: plainJoin)).projectHolder
      plainReleased true).1 ≠ .shared := by
  have hcancelled : ((after (.cancelHolder 20 6 :: plainJoin)).projectHolder plainReleased false).1
      = .cancelled 6 := by decide +kernel
  obtain ⟨hkept, -⟩ := holder_terminal_never_flips (.cancelHolder 20 6 :: plainJoin) plainReleased _ rfl
  refine ⟨by decide +kernel, hcancelled, ?_⟩
  rcases hkept false 6 hcancelled [] plainReleased _ true rfl rfl rfl with h | h
  · exact fun hshared => by cases h.symm.trans hshared
  · exact fun hshared => by cases h.symm.trans hshared

end Sample

end JoinState

end Unica.Runtime
