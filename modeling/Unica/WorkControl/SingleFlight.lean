import Unica.WorkControl.SharedWorkRuns

/-!
# One flight per key

What the callers of a registry see, over any interleaving of its operations: one producer per
key, one outcome per entry, no retirement under a lease, and a fresh producer once everyone
has left.
-/

namespace Unica.WorkControl

open Lib Table

variable {κ ρ ε : Type}

namespace System

theorem outcome_eq_some_iff {s : System κ ρ ε} {entry : Nat} {outcome : Except (SharedWorkError ε) ρ} :
    s.outcome entry = some outcome ↔ ∃ value, s.heap.lookup entry = some value ∧ value.state = .finished outcome := by
  unfold System.outcome
  split
  · rename_i hvalue
    constructor
    · rintro ⟨⟩
      exact ⟨_, hvalue, rfl⟩
    · rintro ⟨value, hvalue', hstate⟩
      cases hvalue.symm.trans hvalue'
      cases hstate
      rfl
  · rename_i hnot
    constructor
    · nofun
    · rintro ⟨⟨key, owners, requested, cancelled, state⟩, hvalue, hstate⟩
      cases hstate
      exact absurd hvalue (hnot _ _ _ _ _)

variable [DecidableEq κ] {lifetime : SharedWorkLifetime} {s s' : System κ ρ ε}
variable {entry thread : Nat}

/-! ## One outcome -/

theorem Steps.outcome (hs : Coherent s) (h : Steps s s') {outcome : Except (SharedWorkError ε) ρ}
    (houtcome : s.outcome entry = some outcome) : s'.outcome entry = some outcome := by
  rw [outcome_eq_some_iff] at *
  obtain ⟨value, hvalue, hstate⟩ := houtcome
  cases h with
  | attach | spawn | locks | stale | removes => exact ⟨value, hvalue, hstate⟩
  | start =>
    have hne : entry ≠ s.next := (hs.allocated hvalue).ne
    exact ⟨value, by rw [lookup_insert_ite, if_neg hne, hvalue], hstate⟩
  | @«local» _ pc _ found value' hthread hfound hlocal =>
    by_cases hentry : entry = pc.entry
    · subst hentry
      cases hvalue.symm.trans hfound
      have hsame := hlocal.state_eq (hs.not_finished hthread hvalue) (by rw [hstate]; rfl)
      exact ⟨value', by rw [lookup_insert_ite, if_pos rfl], hsame.trans hstate⟩
    · exact ⟨value, by rw [lookup_insert_ite, if_neg hentry, hvalue], hstate⟩
  | @attached _ attachedEntry found _ hfound =>
    by_cases hentry : entry = attachedEntry
    · subst hentry
      cases hvalue.symm.trans hfound
      exact ⟨_, Finmap.lookup_insert _, hstate⟩
    · exact ⟨value, by rw [lookup_insert_ite, if_neg hentry, hvalue], hstate⟩

theorem outcome_of_runs (hs : Coherent s) (h : Runs (step lifetime) (fun _ _ => True) s s')
    {outcome : Except (SharedWorkError ε) ρ} (houtcome : s.outcome entry = some outcome) :
    s'.outcome entry = some outcome := by
  have hboth := h.invariant (I := fun t => Coherent t ∧ t.outcome entry = some outcome) ⟨hs, houtcome⟩
    fun t _ t' ht _ hstep => by
      have hsteps := steps_of_step ht.1.known hstep
      exact ⟨ht.1.steps hsteps, hsteps.outcome ht.1 ht.2⟩
  exact hboth.2

/-! ## No retirement under a lease -/

theorem Steps.registered (hs : Coherent s) (h : Steps s s') {key : κ} {pc : Pc ρ ε}
    (hregistered : s.registry.lookup key = some entry) (hthread : s.threads.lookup thread = some pc)
    (howns : pc.owns entry = true) : s'.registry.lookup key = some entry := by
  cases h with
  | spawn | «local» | attached | locks | stale => exact hregistered
  | attach => rwa [hs.retain_alive]
  | @start _ other _ _ hnone =>
    have hne : key ≠ other := by
      rintro rfl
      have hdead := hnone entry hregistered
      rw [hs.alive hregistered] at hdead
      cases hdead
    rw [hs.retain_alive, lookup_insert_ite, if_neg hne, hregistered]
  | @removes _ removed unowned _ value hremover hvalue =>
    cases unowned with
    | false => exact hregistered
    | true =>
      have hne : key ≠ value.key := by
        rintro rfl
        have hcurrent := hs.locked hremover rfl hvalue
        cases hregistered.symm.trans hcurrent
        have hzero := hs.removing hremover hvalue
        rw [hs.owners hvalue] at hzero
        exact absurd hzero (count_pos hthread howns).ne'
      rw [if_pos rfl, lookup_erase_ite, if_neg hne, hregistered]

/-! ## One producer -/

theorem Coherent.runner_eq (hs : Coherent s) {thread' : Nat} {pc pc' : Pc ρ ε}
    {value value' : SharedWorkEntry κ ρ ε} (hthread : s.threads.lookup thread = some pc)
    (hthread' : s.threads.lookup thread' = some pc') (hruns : pc.runs pc.entry = true)
    (hruns' : pc'.runs pc'.entry = true) (hvalue : s.heap.lookup pc.entry = some value)
    (hvalue' : s.heap.lookup pc'.entry = some value') (hkey : value.key = value'.key) : thread = thread' := by
  -- Both entries run, so both are the registered one of the key.
  have hregistered := hs.running hvalue (hs.not_finished hthread hvalue hruns)
  have hregistered' := hs.running hvalue' (hs.not_finished hthread' hvalue' hruns')
  rw [hkey, hregistered'] at hregistered
  have hentry := Option.some.inj hregistered
  rw [hentry] at hruns'
  have hone : count (Pc.runs pc.entry) s.threads ≤ 1 := by
    rw [hs.runs hvalue]
    exact Bool.toNat_le _
  exact eq_of_count_le_one hone hthread hruns hthread' hruns'

/-! ## A fresh flight -/

/-- Exact-key single flight. In every state that any interleaving reaches:
threads that run a producer of one key are one thread; a finished entry keeps its outcome and
every lease of it finds that one; no step takes an entry from the registry that some thread owns;
and a key whose registered entry no thread holds, runs, or is still dropping or finishing is not
registered, so that the next caller starts a flight of its own. -/
theorem single_flight (h : Runs (step lifetime) (fun _ _ => True) {} s) :
    (∀ thread thread' pc pc' value value',
      s.threads.lookup thread = some pc → pc.runs pc.entry = true → s.heap.lookup pc.entry = some value →
      s.threads.lookup thread' = some pc' → pc'.runs pc'.entry = true → s.heap.lookup pc'.entry = some value' →
      value.key = value'.key → thread = thread')
    ∧ (∀ entry outcome, s.outcome entry = some outcome →
      ∀ later, Runs (step lifetime) (fun _ _ => True) s later →
        ∀ thread, later.threads.lookup thread = some (.leased entry) → later.observe thread = some outcome)
    ∧ (∀ move next, s.step lifetime move = some next →
      ∀ key entry thread pc, s.registry.lookup key = some entry →
        s.threads.lookup thread = some pc → pc.owns entry = true → next.registry.lookup key = some entry)
    ∧ (∀ key, (∀ thread pc, s.threads.lookup thread = some pc → s.registry.lookup key ≠ some pc.entry) →
      s.registry.lookup key = none
      ∧ ∀ thread, s.threads.lookup thread = none → s.lock = none →
        ∃ next, s.step lifetime (.joinOrStart thread key) = some next
          ∧ next.threads.lookup thread = some (.spawning s.next)
          ∧ next.registry.lookup key = some s.next
          ∧ next.heap.lookup s.next = some (.new key)) := by
  have hs := coherent_of_runs h
  refine ⟨?_, ?_, ?_, ?_⟩
  · intro thread thread' pc pc' value value' hthread hruns hvalue hthread' hruns' hvalue' hkey
    exact hs.runner_eq hthread hthread' hruns hruns' hvalue hvalue' hkey
  · intro entry outcome houtcome later hlater thread hthread
    simp only [observe, hthread]
    exact outcome_of_runs hs hlater houtcome
  · intro move next hstep key entry thread pc hregistered hthread howns
    exact (steps_of_step hs.known hstep).registered hs hregistered hthread howns
  · intro key hleft
    have hkey : s.registry.lookup key = none := by
      cases hregistered : s.registry.lookup key with
      | none => rfl
      | some entry =>
        have halive := hs.alive hregistered
        rw [alive, existsValue_iff] at halive
        obtain ⟨thread, pc, hthread, hentry⟩ := halive
        exact absurd (hentry ▸ hregistered) (hleft thread pc hthread)
    refine ⟨hkey, fun thread hthread hlock => ⟨s.joinOrStart thread key, ?_, ?_⟩⟩
    · simp [step, hthread, hlock]
    · simp only [joinOrStart, hs.retain_alive, hkey]
      refine ⟨?_, Finmap.lookup_insert _, Finmap.lookup_insert _⟩
      simp [goto, lookup_set]

/-- A producer that a second caller joins, up to its return. -/
def sharedRun : List (Move Nat Nat Unit) :=
  [.joinOrStart 0 5, .spawn 0 1, .joinOrStart 2 5, .advance 2, .returns 1 (.ok 7), .advance 1, .advance 1, .advance 1]

/-- Both callers drop their leases; the second drop retires the entry. -/
def sharedEnd : List (Move Nat Nat Unit) :=
  [.drop 0, .advance 0, .advance 0, .drop 2, .advance 2, .advance 2, .advance 2, .advance 2, .advance 2, .advance 2]

/-- The callers of the run find its result, and when they have dropped their leases the next one
starts again. -/
theorem single_flight_sharedRun : ∃ s s' : System Nat Nat Unit,
      replay (step .ownerBound) {} sharedRun = some s ∧ replay (step .ownerBound) s sharedEnd = some s'
      ∧ s.observe 0 = some (.ok 7) ∧ s.observe 2 = some (.ok 7)
      ∧ ∃ next, s'.step .ownerBound (.joinOrStart 3 5) = some next
        ∧ next.threads.lookup 3 = some (.spawning s'.next) := by
  have hrun : ∃ s s', replay (step .ownerBound) {} sharedRun = some s
      ∧ replay (step .ownerBound) s sharedEnd = some s'
      ∧ s.outcome 0 = some (.ok 7) ∧ s.threads.lookup 0 = some (.leased 0) ∧ s.threads.lookup 2 = some (.leased 0)
      ∧ s'.registry.lookup 5 = none ∧ s'.threads.lookup 3 = none ∧ s'.lock = none :=
    ⟨_, _, rfl, rfl, rfl, rfl, rfl, rfl, rfl, rfl⟩
  obtain ⟨s, s', hs, hs', houtcome, hfirst, hsecond, hkey, hthree, hlock⟩ := hrun
  have hruns := Runs.of_replay hs
  obtain ⟨-, hobserve, -, -⟩ := single_flight hruns
  obtain ⟨-, -, -, hfresh⟩ := single_flight (hruns.trans (Runs.of_replay hs'))
  obtain ⟨next, hnext, hspawning, -⟩ := (hfresh 5 fun thread pc _ => by simp [hkey]).2 3 hthree hlock
  exact ⟨s, s', hs, hs', hobserve 0 _ houtcome s .refl 0 hfirst, hobserve 0 _ houtcome s .refl 2 hsecond,
    next, hnext, hspawning⟩

end System

end Unica.WorkControl
