import Mathlib.Data.List.Basic

/-!
# Findings before and after a change

`ValidationDiff::between`: a finding of the changed package is known if one of the same code at
the same place was found before it and not yet taken.
-/

namespace Unica.Xdto

open List Function

inductive FindingSeverity where
  | error
  deriving DecidableEq

structure SourceSpanDto where
  start : Nat
  stop : Nat
  deriving DecidableEq

structure FindingLocation where
  key : String
  span : SourceSpanDto
  deriving DecidableEq

structure Finding where
  code : String
  severity : FindingSeverity
  message : String
  location : FindingLocation
  deriving DecidableEq

def Finding.semanticKey (finding : Finding) : String × String := (finding.code, finding.location.key)

inductive FindingState where
  | preExisting
  | introduced
  deriving DecidableEq

structure ClassifiedFinding extends Finding where
  state : FindingState
  deriving DecidableEq

/-- Findings not yet taken, by code and key. -/
abbrev Baseline := String × String → List Finding

/-- `push_back` at the finding's own key. -/
def Baseline.push (baseline : Baseline) (finding : Finding) : Baseline :=
  Function.update baseline finding.semanticKey (baseline finding.semanticKey ++ [finding])

/-- The pass over the findings after the change. -/
def classify (baseline : Baseline) : List Finding → List ClassifiedFinding
  | [] => []
  | finding :: rest =>
    match baseline finding.semanticKey with
    | known :: queue =>
      ⟨known, .preExisting⟩ :: classify (Function.update baseline finding.semanticKey queue) rest
    | [] => ⟨finding, .introduced⟩ :: classify baseline rest

structure ValidationDiff where
  findings : List ClassifiedFinding

namespace ValidationDiff

def between (before after : List Finding) : ValidationDiff :=
  ⟨classify (before.foldl Baseline.push fun _ => []) after⟩

def blocks (diff : ValidationDiff) : Bool :=
  diff.findings.any fun finding => finding.state = .introduced ∧ finding.severity = .error

end ValidationDiff

open ValidationDiff

/-- How many findings have the code and key. -/
def occurrences (key : String × String) (findings : List Finding) : Nat :=
  findings.countP fun finding => finding.semanticKey = key

variable {baseline : Baseline} {before after : List Finding} {key : String × String}

theorem foldl_push (baseline : Baseline) (before : List Finding) (key : String × String) :
    before.foldl Baseline.push baseline key =
      baseline key ++ before.filter (fun finding => finding.semanticKey = key) := by
  induction before generalizing baseline with
  | nil => simp
  | cons finding rest ih =>
    rw [foldl_cons, ih, Baseline.push]
    by_cases hkey : key = finding.semanticKey
    · subst hkey
      simp
    · simp [update_of_ne hkey, Ne.symm hkey]

/-- Every known finding waits under its own key. -/
def Baseline.Keyed (baseline : Baseline) : Prop :=
  ∀ key, ∀ finding ∈ baseline key, finding.semanticKey = key

/-- One step of the pass takes at most one known finding, of the key in hand. -/
theorem classify_cons (hkeyed : baseline.Keyed) (finding : Finding) (rest : List Finding) :
    ∃ result next, classify baseline (finding :: rest) = result :: classify next rest ∧
      next.Keyed ∧ result.semanticKey = finding.semanticKey ∧
      (result.state = .preExisting ↔ 0 < (baseline finding.semanticKey).length) ∧
      ∀ key, (next key).length =
        (baseline key).length - if finding.semanticKey = key then 1 else 0 := by
  cases hkey : baseline finding.semanticKey with
  | nil =>
    refine ⟨⟨finding, .introduced⟩, baseline, by simp [classify, hkey], hkeyed, rfl, by simp, ?_⟩
    intro key
    split
    · rename_i hsame
      simp [← hsame, hkey]
    · rfl
  | cons known queue =>
    have hown := hkeyed finding.semanticKey
    rw [hkey, forall_mem_cons] at hown
    refine ⟨⟨known, .preExisting⟩, update baseline finding.semanticKey queue,
      by simp [classify, hkey], ?_, hown.1, by simp, ?_⟩
    all_goals
      intro key
      by_cases hsame : finding.semanticKey = key
    · subst hsame
      simpa using hown.2
    · rw [update_of_ne (Ne.symm hsame)]
      exact hkeyed key
    · subst hsame
      simp [hkey]
    · simp [hsame, update_of_ne (Ne.symm hsame)]

theorem occurrences_cons (finding : Finding) (rest : List Finding) :
    occurrences key (finding :: rest) =
      occurrences key rest + if finding.semanticKey = key then 1 else 0 := by
  simp [occurrences, countP_cons]

/-- How many findings of the key got the state. -/
def marked (key : String × String) (state : FindingState) (findings : List ClassifiedFinding) :
    Nat :=
  findings.countP fun finding => finding.semanticKey = key ∧ finding.state = state

theorem map_semanticKey_classify (hkeyed : baseline.Keyed) (after : List Finding) :
    (classify baseline after).map (·.semanticKey) = after.map (·.semanticKey) := by
  induction after generalizing baseline with
  | nil => rfl
  | cons finding rest ih =>
    obtain ⟨result, next, hstep, hnext, hsame, -⟩ := classify_cons hkeyed finding rest
    rw [hstep, map_cons, map_cons, ih hnext, hsame]

theorem state_classify (hkeyed : baseline.Keyed) {i : Nat} {finding : Finding}
    (h : after[i]? = some finding) : ∃ result, (classify baseline after)[i]? = some result ∧
      (result.state = .preExisting ↔
        occurrences finding.semanticKey (after.take i) < (baseline finding.semanticKey).length) := by
  induction after generalizing baseline i with
  | nil => simp at h
  | cons first rest ih =>
    obtain ⟨result, next, hstep, hnext, -, hstate, hlength⟩ := classify_cons hkeyed first rest
    rw [hstep]
    cases i with
    | zero =>
      obtain rfl : first = finding := by simpa using h
      exact ⟨result, rfl, by simpa [occurrences] using hstate⟩
    | succ i =>
      obtain ⟨found, hfound, hknown⟩ := ih hnext (by simpa using h)
      refine ⟨found, by simpa using hfound, ?_⟩
      rw [hknown, hlength, take_succ_cons, occurrences_cons]
      omega

/-- Of each key the known findings are taken before any is introduced. -/
theorem marked_classify (hkeyed : baseline.Keyed) (after : List Finding) (key : String × String) :
    marked key .preExisting (classify baseline after) =
      min (baseline key).length (occurrences key after) ∧
    marked key .introduced (classify baseline after) =
      occurrences key after - (baseline key).length := by
  induction after generalizing baseline with
  | nil => simp [classify, occurrences, marked]
  | cons finding rest ih =>
    obtain ⟨result, next, hstep, hnext, hsame, hstate, hlength⟩ := classify_cons hkeyed finding rest
    obtain ⟨hpre, hnew⟩ := ih hnext
    have hcons (state : FindingState) : marked key state (result :: classify next rest) =
        marked key state (classify next rest) +
          if finding.semanticKey = key ∧ result.state = state then 1 else 0 := by
      simp [marked, countP_cons, hsame]
    rw [hstep, hcons, hcons, hpre, hnew, hlength, occurrences_cons]
    by_cases hkey : finding.semanticKey = key
    · subst hkey
      rw [if_pos rfl]
      cases hresult : result.state with
      | preExisting =>
        have hknown := hstate.mp hresult
        simp only [reduceCtorEq, and_true, and_false, if_true, if_false]
        omega
      | introduced =>
        have hnone : ¬ 0 < (baseline finding.semanticKey).length := by
          rw [← hstate, hresult]
          decide
        simp only [reduceCtorEq, and_true, and_false, if_true, if_false]
        omega
    · simp [hkey]

/-- **Only new findings block.** The findings keep their places, of each code and key the first
are known as far as the old ones go, and a change is blocked by a code and key found more often
than before. -/
theorem only_new_findings_block (before after : List Finding) :
    (between before after).findings.map (·.semanticKey) = after.map (·.semanticKey) ∧
    (∀ i finding, after[i]? = some finding →
      ∃ result, (between before after).findings[i]? = some result ∧
        (result.state = .preExisting ↔ occurrences finding.semanticKey (after.take i) <
          occurrences finding.semanticKey before)) ∧
    (∀ key, marked key .preExisting (between before after).findings =
      min (occurrences key before) (occurrences key after)) ∧
    ((between before after).blocks = true ↔
      ∃ key, occurrences key before < occurrences key after) := by
  have hlength (key : String × String) : occurrences key before =
      (before.foldl Baseline.push (fun _ => []) key).length := by
    rw [foldl_push, nil_append, occurrences, countP_eq_length_filter]
  have hkeyed : Baseline.Keyed (before.foldl Baseline.push fun _ => []) := by
    intro key finding hmem
    rw [foldl_push, nil_append, mem_filter] at hmem
    exact of_decide_eq_true hmem.2
  simp only [hlength]
  refine ⟨map_semanticKey_classify hkeyed after, fun i finding => state_classify hkeyed,
    fun key => (marked_classify hkeyed after key).1, ?_⟩
  have hnew (key : String × String) :
      (before.foldl Baseline.push (fun _ => []) key).length < occurrences key after ↔
        ∃ finding ∈ (between before after).findings,
          finding.semanticKey = key ∧ finding.state = .introduced := by
    rw [← Nat.sub_pos_iff_lt, ← (marked_classify hkeyed after key).2, marked, countP_pos_iff]
    simp [between]
  rw [exists_congr hnew]
  simp [blocks]

end Unica.Xdto
