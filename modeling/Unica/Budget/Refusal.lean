import Unica.Budget.Result
import Unica.Lib.Bisect
import Mathlib.Order.MinMax

/-!
# Diagnostics in a budget

`fit_refusal_diagnostics` keeps the first diagnostic of a refusal, the refusal itself, and as many
of the others as the budget of the client leaves room for, and counts them in the data. A refusal is
cut for the largest client when it is stored and again for the client that reads it.
-/

namespace Unica.Budget

open Lib Value Option

def maxErrorDiagnosticTextBytes : Nat := 4096
def envelopeReserveBytes : Nat := 2048

/-- Sums of sizes saturate at the largest `usize`. -/
def usizeMax : Nat := 2 ^ 64 - 1

/-- A refusal is delivered with a text mirror of its diagnostics and with its recovery calls. -/
def refusalSize (result : DomainResult) : Nat :=
  min (result.length + maxErrorDiagnosticTextBytes + listLength result.next + envelopeReserveBytes)
    usizeMax

/-- An answer that was cut before keeps its count. -/
def diagnosticTotal (result : DomainResult) : Nat :=
  (do
    let data ← result.data
    let counted ← data.get "diagnostics"
    let total ← counted.get "total"
    total.asU64).getD (result.diagnostics.length - 1)

def objectEntries : Option Value → List (String × Value)
  | some (.object entries) => entries
  | _ => []

def diagnosticCount (total count : Nat) : Value :=
  .object [("total", .number total), ("shown", .number count)]

/-- The refusal with `count` diagnostics behind the first. -/
def shownDiagnostics (result : DomainResult) (total count : Nat) : DomainResult :=
  { result with
    diagnostics := result.diagnostics.take (count + 1)
    data := some (.object
      (insertEntry "diagnostics" (diagnosticCount total count) (objectEntries result.data))) }

/-- The number a cut keeps behind the first diagnostic. -/
def keptDiagnostics (result : DomainResult) (total budget : Nat) : Nat :=
  bisect (fun count => refusalSize (shownDiagnostics result total count) ≤ budget) 0 total

def fitRefusalDiagnostics (result : DomainResult) (budget : Nat) : DomainResult :=
  if result.ok = true ∨ result.diagnostics.length ≤ 1 ∨ refusalSize result ≤ budget then result
  else
    let total := diagnosticTotal result
    shownDiagnostics result total (keptDiagnostics result total budget)

variable {r : DomainResult} {total count more budget : Nat}

theorem refusalSize_mono (h : count ≤ more) :
    refusalSize (shownDiagnostics r total count) ≤ refusalSize (shownDiagnostics r total more) := by
  have hdiagnostics : listFieldLength "diagnostics" (r.diagnostics.take (count + 1)) ≤
      listFieldLength "diagnostics" (r.diagnostics.take (more + 1)) :=
    listFieldLength_mono (List.take_prefix_take_left (by omega))
  have hcount : (diagnosticCount total count).length ≤ (diagnosticCount total more).length := by
    have hdigits : Nat.log 10 count ≤ Nat.log 10 more := Nat.log_mono_right h
    simp only [diagnosticCount, length, entriesLength, entryLength]
    omega
  have hdata : fieldLength "data" ((shownDiagnostics r total count).data.map length) ≤
      fieldLength "data" ((shownDiagnostics r total more).data.map length) := by
    have hentries : entriesLength (insertEntry "diagnostics" (diagnosticCount total count)
        (objectEntries r.data)) ≤ _ := insertEntry_length_mono hcount
    simp only [shownDiagnostics, map_some, fieldLength, entryLength, length]
    omega
  simp only [shownDiagnostics] at hdata
  have hlength : (shownDiagnostics r total count).length ≤ (shownDiagnostics r total more).length := by
    simp only [DomainResult.length, shownDiagnostics]
    omega
  exact min_le_min_right usizeMax (by simp only [shownDiagnostics] at hlength ⊢; omega)

/-- A second cut that keeps no more than the first shows what one cut shows. -/
theorem shownDiagnostics_twice (h : count ≤ more) :
    shownDiagnostics (shownDiagnostics r total more) total count = shownDiagnostics r total count := by
  simp only [shownDiagnostics, objectEntries, insertEntry_insertEntry, List.take_take]
  rw [Nat.min_eq_left (by omega)]

theorem diagnosticTotal_shown : diagnosticTotal (shownDiagnostics r total count) = total := by
  simp [diagnosticTotal, shownDiagnostics, Value.get, lookup_insertEntry_self, diagnosticCount, Value.asU64]

theorem keptDiagnostics_longest (r : DomainResult) (total budget : Nat) :
    Longest (fun count => refusalSize (shownDiagnostics r total count) ≤ budget) total
      (keptDiagnostics r total budget) := by
  refine bisect_longest (Nat.zero_le _) (.inl rfl) (fun n more _ hle hfits => ?_)
    (fun more hmore hle => absurd hle (by omega)) le_rfl
  exact decide_eq_true ((refusalSize_mono hle).trans (of_decide_eq_true hfits))

/-- What a cut of a refusal for a budget leaves. -/
structure CutTo (r : DomainResult) (budget kept : Nat) (f : DomainResult) : Prop where
  first : kept < r.diagnostics.length
  diagnostics : f.diagnostics = r.diagnostics.take (kept + 1)
  fits : kept = 0 ∨ refusalSize f ≤ budget
  longest : ∀ more, kept < more → more < r.diagnostics.length →
    budget < refusalSize (shownDiagnostics r (r.diagnostics.length - 1) more)
  counted : f.data.bind (Value.get "diagnostics") =
    some (diagnosticCount (r.diagnostics.length - 1) kept)
  entries : ∀ name, name ≠ "diagnostics" → f.data.bind (Value.get name) = r.data.bind (Value.get name)
  others : { f with diagnostics := r.diagnostics, data := r.data } = r

/-- The data is absent, or an object that counts no diagnostics yet. -/
def Uncounted (r : DomainResult) : Prop :=
  r.data = none ∨ ∃ entries, r.data = some (.object entries) ∧ entries.lookup "diagnostics" = none

theorem Uncounted.total_eq (h : Uncounted r) : diagnosticTotal r = r.diagnostics.length - 1 := by
  obtain hnone | ⟨entries, hentries, hlookup⟩ := h
  · simp [diagnosticTotal, hnone]
  · simp [diagnosticTotal, hentries, Value.get, hlookup]

theorem Uncounted.cut (h : Uncounted r) (hmany : 1 < r.diagnostics.length) :
    CutTo r budget (keptDiagnostics r (r.diagnostics.length - 1) budget)
      (shownDiagnostics r (r.diagnostics.length - 1)
        (keptDiagnostics r (r.diagnostics.length - 1) budget)) := by
  have hlongest := keptDiagnostics_longest r (r.diagnostics.length - 1) budget
  refine ⟨?_, rfl, ?_, ?_, ?_, ?_, ?_⟩
  · have := hlongest.le
    omega
  · exact hlongest.accepted.imp id of_decide_eq_true
  · intro more hmore hlt
    exact Nat.lt_of_not_le (of_decide_eq_false (hlongest.largest more hmore (by omega)))
  · simp [shownDiagnostics, Value.get, lookup_insertEntry_self]
  · intro name hname
    simp only [shownDiagnostics, bind_some, Value.get, lookup_insertEntry_ne hname]
    obtain hnone | ⟨entries, hentries, -⟩ := h
    · simp [hnone, objectEntries]
    · simp [hentries, objectEntries, Value.get]
  · rfl

theorem fit_of_whole (h : r.diagnostics.length ≤ 1 ∨ refusalSize r ≤ budget) :
    fitRefusalDiagnostics r budget = r := by
  rw [fitRefusalDiagnostics, if_pos (.inr h)]

theorem fit_of_cut (hok : r.ok = false) (hmany : 1 < r.diagnostics.length)
    (hover : budget < refusalSize r) : fitRefusalDiagnostics r budget =
      shownDiagnostics r (diagnosticTotal r) (keptDiagnostics r (diagnosticTotal r) budget) := by
  rw [fitRefusalDiagnostics, if_neg]
  simp only [hok, Bool.false_eq_true, false_or]
  omega

/-- A cut for a smaller budget undoes nothing of the cut for a larger one. -/
theorem fit_again {larger smaller : Nat} (hle : smaller ≤ larger) (hok : r.ok = false)
    (hmany : 1 < r.diagnostics.length) (hover : larger < refusalSize r) :
    fitRefusalDiagnostics (fitRefusalDiagnostics r larger) smaller = fitRefusalDiagnostics r smaller := by
  rw [fit_of_cut hok hmany hover, fit_of_cut hok hmany (hle.trans_lt hover)]
  generalize diagnosticTotal r = total
  have hfirst := keptDiagnostics_longest r total larger
  have hsecond := keptDiagnostics_longest r total smaller
  generalize keptDiagnostics r total larger = kept at hfirst
  generalize keptDiagnostics r total smaller = fewer at hsecond
  have hfewer : fewer ≤ kept := by
    apply hsecond.le_of_imp hfirst
    intro n _ hfits
    exact decide_eq_true ((of_decide_eq_true hfits).trans hle)
  by_cases hagain : (shownDiagnostics r total kept).diagnostics.length ≤ 1 ∨
      refusalSize (shownDiagnostics r total kept) ≤ smaller
  · rw [fit_of_whole hagain]
    rcases hagain with hshort | hfits
    · rw [shownDiagnostics, List.length_take] at hshort
      rw [show kept = fewer by omega]
    · have hkept : kept ≤ fewer := by
        by_contra hlt
        have := of_decide_eq_false (hsecond.largest kept (by omega) hfirst.le)
        omega
      rw [show kept = fewer by omega]
  · rw [not_or] at hagain
    have hok' : (shownDiagnostics r total kept).ok = false := hok
    rw [fit_of_cut hok' (by omega) (by omega), diagnosticTotal_shown]
    have hthird := keptDiagnostics_longest (shownDiagnostics r total kept) total smaller
    rw [hthird.unique hsecond fun n hn => ?_, shownDiagnostics_twice hfewer]
    rcases Nat.le_total n kept with hless | hmore
    · rw [shownDiagnostics_twice hless]
    -- what the larger budget refuses, the smaller refuses too, also after the first cut
    · have hself : shownDiagnostics (shownDiagnostics r total kept) total kept = shownDiagnostics r total kept :=
        shownDiagnostics_twice le_rfl
      have hmono : refusalSize (shownDiagnostics (shownDiagnostics r total kept) total kept) ≤
          refusalSize (shownDiagnostics (shownDiagnostics r total kept) total n) := refusalSize_mono hmore
      rw [hself] at hmono
      rcases hmore.lt_or_eq with hlt | rfl
      · have hrefused := of_decide_eq_false (hfirst.largest n hlt hn)
        rw [decide_eq_false (by omega), decide_eq_false (by omega)]
      · rw [hself]

/-- **Cuts are exact and compose.** -/
theorem refusal_diagnostics_cut (r : DomainResult) (hok : r.ok = false) (hdata : Uncounted r) :
    (∀ budget, (r.diagnostics.length ≤ 1 ∨ refusalSize r ≤ budget) ∧ fitRefusalDiagnostics r budget = r ∨
      budget < refusalSize r ∧ ∃ kept, CutTo r budget kept (fitRefusalDiagnostics r budget)) ∧
    ∀ larger smaller, smaller ≤ larger →
      fitRefusalDiagnostics (fitRefusalDiagnostics r larger) smaller = fitRefusalDiagnostics r smaller := by
  constructor
  · intro budget
    by_cases hwhole : r.diagnostics.length ≤ 1 ∨ refusalSize r ≤ budget
    · left
      exact ⟨hwhole, fit_of_whole hwhole⟩
    · right
      refine ⟨by omega, keptDiagnostics r (r.diagnostics.length - 1) budget, ?_⟩
      rw [fit_of_cut hok (by omega) (by omega), hdata.total_eq]
      exact hdata.cut (by omega)
  · intro larger smaller hle
    by_cases hwhole : r.diagnostics.length ≤ 1 ∨ refusalSize r ≤ larger
    · rw [fit_of_whole hwhole]
    · rw [not_or] at hwhole
      exact fit_again hle hok (by omega) (by omega)

/-- A refusal with two diagnostics. -/
def plainRefusal : DomainResult where
  ok := false
  at' := none
  summary := []
  data := none
  changed := []
  warnings := []
  diagnostics := [.number 1, .number 2]
  artifacts := []
  next := []
  rev := none
  cursor := none
  page := none
  sourceText := none
  sourceTextReadHint := none

theorem plainRefusal_cut_twice : fitRefusalDiagnostics (fitRefusalDiagnostics plainRefusal 5000) 10 =
    fitRefusalDiagnostics plainRefusal 10 :=
  (refusal_diagnostics_cut plainRefusal rfl (.inl rfl)).2 5000 10 (by decide)

end Unica.Budget
