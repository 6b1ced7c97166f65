import Mathlib

/-!
# Provider deadlines

A deadline of a provider is a start instant and a budget, or no deadline. Its end
point may lie past the last instant the clock can show, so it is never computed:
equality compares the difference of the budgets with the difference of the starts,
and `earlier` adds with saturation. Both agree with the exact end point.
-/

namespace Unica.WorkControl

/-- One past the nanoseconds of `Duration::MAX`. -/
abbrev durationBound : Nat := 2 ^ 64 * 10 ^ 9

structure Duration where
  nanos : Nat
  nanos_lt : nanos < durationBound
  deriving DecidableEq

/-- A point of the monotonic clock, whose seconds are an `i64`. -/
structure Instant where
  nanos : Int
  nanos_ge : -(2 ^ 63 * 10 ^ 9) ≤ nanos
  nanos_lt : nanos < 2 ^ 63 * 10 ^ 9
  deriving DecidableEq

namespace Duration

theorem nanos_injective : Function.Injective nanos := by
  intro a b h
  cases b
  cases h
  rfl

instance : LinearOrder Duration := LinearOrder.lift' nanos nanos_injective

theorem le_def {a b : Duration} : a ≤ b ↔ a.nanos ≤ b.nanos := Iff.rfl

def zero : Duration := ⟨0, by decide⟩

def max : Duration := ⟨durationBound - 1, by decide⟩

def checkedSub (a b : Duration) : Option Duration :=
  if b.nanos ≤ a.nanos then some ⟨a.nanos - b.nanos, lt_of_le_of_lt (Nat.sub_le _ _) a.nanos_lt⟩ else none

def saturatingAdd (a b : Duration) : Duration :=
  if h : a.nanos + b.nanos < durationBound then ⟨a.nanos + b.nanos, h⟩ else max

theorem checkedSub_eq_some {a b c : Duration} : a.checkedSub b = some c ↔ a.nanos = b.nanos + c.nanos := by
  unfold checkedSub
  split
  · rw [Option.some_inj, ← nanos_injective.eq_iff]
    show a.nanos - b.nanos = c.nanos ↔ _
    omega
  · simp only [reduceCtorEq, false_iff]
    omega

/-- No duration tells a saturated sum from the exact one. -/
theorem le_saturatingAdd {a b c : Duration} : a ≤ b.saturatingAdd c ↔ a.nanos ≤ b.nanos + c.nanos := by
  have ha := a.nanos_lt
  unfold saturatingAdd
  split
  · rfl
  · show a.nanos ≤ durationBound - 1 ↔ _
    omega

end Duration

namespace Instant

theorem nanos_injective : Function.Injective nanos := by
  intro a b h
  cases b
  cases h
  rfl

instance : LinearOrder Instant := LinearOrder.lift' nanos nanos_injective

theorem le_def {a b : Instant} : a ≤ b ↔ a.nanos ≤ b.nanos := Iff.rfl

/-- Any two instants are at most `Duration::MAX` apart. -/
theorem sub_toNat_lt (a b : Instant) : (a.nanos - b.nanos).toNat < durationBound := by
  have ha := a.nanos_lt
  have hb := b.nanos_ge
  unfold durationBound
  omega

def checkedDurationSince (later earlier : Instant) : Option Duration :=
  if earlier ≤ later then some ⟨(later.nanos - earlier.nanos).toNat, sub_toNat_lt later earlier⟩ else none

/-- Zero for an earlier instant. -/
def durationSince (later earlier : Instant) : Duration :=
  (later.checkedDurationSince earlier).getD .zero

theorem checkedDurationSince_of_le {later earlier : Instant} (h : earlier ≤ later) :
    ∃ d, later.checkedDurationSince earlier = some d ∧ (d.nanos : Int) = later.nanos - earlier.nanos := by
  refine ⟨⟨(later.nanos - earlier.nanos).toNat, sub_toNat_lt later earlier⟩, if_pos h, ?_⟩
  rw [le_def] at h
  show (((later.nanos - earlier.nanos).toNat : Nat) : Int) = _
  omega

end Instant

inductive OperationDeadline (α : Type) where
  | noDeadline
  | finite (value : α)
  deriving DecidableEq

structure RelativeProviderDeadline where
  startedAt : Instant
  budget : Duration
  deriving DecidableEq

open RelativeProviderDeadline Duration Option

/-- The clock of a deadline is the argument `now` of `remaining`. -/
structure ProviderDeadline where
  deadline : OperationDeadline RelativeProviderDeadline

namespace ProviderDeadline

def noDeadline : ProviderDeadline := ⟨.noDeadline⟩

def fromStartedAt (startedAt : Instant) (budget : Duration) : ProviderDeadline :=
  ⟨.finite ⟨startedAt, budget⟩⟩

def eq (a b : ProviderDeadline) : Bool :=
  match a.deadline, b.deadline with
  | .noDeadline, .noDeadline => true
  | .finite left, .finite right =>
      if left.startedAt ≤ right.startedAt then
        left.budget.checkedSub right.budget == right.startedAt.checkedDurationSince left.startedAt
      else right.budget.checkedSub left.budget == left.startedAt.checkedDurationSince right.startedAt
  | _, _ => false

instance : BEq ProviderDeadline := ⟨eq⟩

def earlier (a b : ProviderDeadline) : ProviderDeadline :=
  match a.deadline, b.deadline with
  | .noDeadline, _ => b
  | .finite _, .noDeadline => a
  | .finite left, .finite right =>
      let (first, firstFinite, second, secondFinite) :=
        if left.startedAt ≤ right.startedAt then (a, left, b, right) else (b, right, a, left)
      let secondEnd :=
        secondFinite.budget.saturatingAdd (secondFinite.startedAt.durationSince firstFinite.startedAt)
      if firstFinite.budget ≤ secondEnd then first else second

/-- `None`: no cutoff. A deadline that has passed leaves zero. -/
def remaining (d : ProviderDeadline) (now : Instant) : Option Duration :=
  match d.deadline with
  | .noDeadline => none
  | .finite finite =>
      let elapsed := (now.checkedDurationSince finite.startedAt).getD .zero
      some ((finite.budget.checkedSub elapsed).getD .zero)

/-- The exact end point, which no instant need show. -/
def endPoint (d : ProviderDeadline) : WithTop Int :=
  match d.deadline with
  | .noDeadline => ⊤
  | .finite finite => ((finite.startedAt.nanos + finite.budget.nanos : Int) : WithTop Int)

/-- What remains, ordered with absence above every duration. -/
def timeLeft (d : ProviderDeadline) (now : Instant) : WithTop Duration := d.remaining now

/-- The instant is not before the start of the deadline. -/
def StartedBy (d : ProviderDeadline) (now : Instant) : Prop :=
  ∀ finite, d.deadline = .finite finite → finite.startedAt ≤ now

instance (d : ProviderDeadline) (now : Instant) : Decidable (d.StartedBy now) :=
  match h : d.deadline with
  | .noDeadline => isTrue fun _ hd => by rw [h] at hd; cases hd
  | .finite finite =>
      decidable_of_iff (finite.startedAt ≤ now) ⟨fun hle _ hd => by rw [h] at hd; cases hd; exact hle,
        fun hs => hs finite h⟩

end ProviderDeadline

namespace RelativeProviderDeadline

variable {left right : RelativeProviderDeadline}

/-- The comparison `eq` makes, for the deadline that starts first. -/
theorem budgets_differ_by_starts_iff (h : left.startedAt ≤ right.startedAt) :
    left.budget.checkedSub right.budget = right.startedAt.checkedDurationSince left.startedAt ↔
      left.startedAt.nanos + left.budget.nanos = right.startedAt.nanos + right.budget.nanos := by
  obtain ⟨apart, hapart, hnanos⟩ := Instant.checkedDurationSince_of_le h
  rw [hapart, checkedSub_eq_some]
  omega

/-- The comparison `earlier` makes, for the deadline that starts first. -/
theorem budget_le_secondEnd_iff (h : left.startedAt ≤ right.startedAt) :
    left.budget ≤ right.budget.saturatingAdd (right.startedAt.durationSince left.startedAt) ↔
      left.startedAt.nanos + left.budget.nanos ≤ right.startedAt.nanos + right.budget.nanos := by
  obtain ⟨apart, hapart, hnanos⟩ := Instant.checkedDurationSince_of_le h
  rw [Instant.durationSince, hapart, getD_some, le_saturatingAdd]
  omega

end RelativeProviderDeadline

namespace ProviderDeadline

theorem beq_iff_endPoint_eq (a b : ProviderDeadline) : (a == b) = true ↔ a.endPoint = b.endPoint := by
  obtain ⟨a⟩ := a
  obtain ⟨b⟩ := b
  show eq ⟨a⟩ ⟨b⟩ = true ↔ _
  cases a with
  | noDeadline =>
    cases b with
    | noDeadline => simp [eq, endPoint]
    | finite right => exact iff_of_false Bool.false_ne_true WithTop.top_ne_coe
  | finite left =>
    cases b with
    | noDeadline => simp [eq, endPoint]
    | finite right =>
      simp only [eq, endPoint, WithTop.coe_inj]
      by_cases h : left.startedAt ≤ right.startedAt
      · rw [if_pos h, beq_iff_eq, budgets_differ_by_starts_iff h]
      · rw [if_neg h, beq_iff_eq, budgets_differ_by_starts_iff (le_of_lt (not_le.mp h)), eq_comm]

/-- `earlier` picks the deadline whose end point is the smaller one. -/
theorem earlier_cases (a b : ProviderDeadline) :
    (a.earlier b = a ∧ a.endPoint ≤ b.endPoint) ∨ (a.earlier b = b ∧ b.endPoint ≤ a.endPoint) := by
  obtain ⟨a⟩ := a
  obtain ⟨b⟩ := b
  cases a with
  | noDeadline => exact .inr ⟨rfl, le_top⟩
  | finite left =>
    cases b with
    | noDeadline => exact .inl ⟨rfl, le_top⟩
    | finite right =>
      simp only [earlier, endPoint, WithTop.coe_le_coe]
      by_cases h : left.startedAt ≤ right.startedAt
      · have hends := budget_le_secondEnd_iff h
        simp only [if_pos h]
        by_cases hle : left.budget ≤ right.budget.saturatingAdd (right.startedAt.durationSince left.startedAt)
        · exact .inl ⟨if_pos hle, hends.mp hle⟩
        · have hlt := mt hends.mpr hle
          exact .inr ⟨if_neg hle, by omega⟩
      · have hends := budget_le_secondEnd_iff (le_of_lt (not_le.mp h))
        simp only [if_neg h]
        by_cases hle : right.budget ≤ left.budget.saturatingAdd (left.startedAt.durationSince right.startedAt)
        · exact .inr ⟨if_pos hle, hends.mp hle⟩
        · have hlt := mt hends.mpr hle
          exact .inl ⟨if_neg hle, by omega⟩

theorem endPoint_earlier (a b : ProviderDeadline) : (a.earlier b).endPoint = min a.endPoint b.endPoint := by
  obtain ⟨h, hle⟩ | ⟨h, hle⟩ := earlier_cases a b
  · rw [h, min_eq_left hle]
  · rw [h, min_eq_right hle]

variable {now : Instant} {a b : ProviderDeadline}

/-- A deadline that has started leaves what the clock is short of its end point. -/
theorem timeLeft_nanos {d : ProviderDeadline} (h : d.StartedBy now) :
    WithTop.map nanos (d.timeLeft now) = WithTop.map (fun e => (e - now.nanos).toNat) d.endPoint := by
  obtain ⟨d⟩ := d
  cases d with
  | noDeadline => rfl
  | finite finite =>
    obtain ⟨elapsed, helapsed, hnanos⟩ := Instant.checkedDurationSince_of_le (h finite rfl)
    have hleft : ((finite.budget.checkedSub elapsed).getD .zero).nanos =
        (finite.startedAt.nanos + finite.budget.nanos - now.nanos).toNat := by
      unfold checkedSub
      split
      · show finite.budget.nanos - elapsed.nanos = _
        omega
      · show 0 = _
        omega
    simp only [timeLeft, remaining, helapsed, endPoint, getD_some]
    exact congrArg WithTop.some hleft

theorem timeLeft_mono (ha : a.StartedBy now) (hb : b.StartedBy now)
    (h : a.endPoint ≤ b.endPoint) : a.timeLeft now ≤ b.timeLeft now := by
  have hmono : Monotone fun e : Int => (e - now.nanos).toNat := by
    intro e e' hle
    show (e - now.nanos).toNat ≤ (e' - now.nanos).toNat
    omega
  rw [← WithTop.map_le_iff nanos Iff.rfl, timeLeft_nanos ha, timeLeft_nanos hb]
  exact hmono.withTop_map h

theorem timeLeft_earlier (ha : a.StartedBy now) (hb : b.StartedBy now) :
    (a.earlier b).timeLeft now = min (a.timeLeft now) (b.timeLeft now) := by
  obtain ⟨h, hle⟩ | ⟨h, hle⟩ := earlier_cases a b
  · rw [h, min_eq_left (timeLeft_mono ha hb hle)]
  · rw [h, min_eq_right (timeLeft_mono hb ha hle)]

theorem beq_equivalence : Equivalence fun a b : ProviderDeadline => (a == b) = true where
  refl a := (beq_iff_endPoint_eq a a).mpr rfl
  symm h := (beq_iff_endPoint_eq _ _).mpr ((beq_iff_endPoint_eq _ _).mp h).symm
  trans h h' := (beq_iff_endPoint_eq _ _).mpr (((beq_iff_endPoint_eq _ _).mp h).trans ((beq_iff_endPoint_eq _ _).mp h'))

/-- A deadline is its end point: equality compares it, `earlier` is its minimum, and what
remains at any instant not before the starts follows it. -/
theorem provider_deadline_is_its_end_point (a b c : ProviderDeadline) (now : Instant) (ha : a.StartedBy now)
    (hb : b.StartedBy now) :
    ((a == b) = true ↔ a.endPoint = b.endPoint)
      ∧ (Equivalence fun a b : ProviderDeadline => (a == b) = true)
      ∧ (a.earlier b == b.earlier a) = true
      ∧ ((a.earlier b).earlier c == a.earlier (b.earlier c)) = true
      ∧ (a.earlier a == a) = true
      ∧ (a.earlier b).timeLeft now = min (a.timeLeft now) (b.timeLeft now) := by
  have hcomm : (a.earlier b).endPoint = (b.earlier a).endPoint := by
    rw [endPoint_earlier, endPoint_earlier, min_comm]
  have hassoc : ((a.earlier b).earlier c).endPoint = (a.earlier (b.earlier c)).endPoint := by
    simp only [endPoint_earlier, min_assoc]
  have hidem : (a.earlier a).endPoint = a.endPoint := by
    rw [endPoint_earlier, min_self]
  exact ⟨beq_iff_endPoint_eq a b, beq_equivalence, (beq_iff_endPoint_eq _ _).mpr hcomm,
    (beq_iff_endPoint_eq _ _).mpr hassoc, (beq_iff_endPoint_eq _ _).mpr hidem, timeLeft_earlier ha hb⟩

/-- The longest budget, from an instant after the clock's zero. -/
def longest (nanos : Nat) (h : nanos < 3) : ProviderDeadline :=
  .fromStartedAt ⟨nanos, by omega, by omega⟩ .max

/-- Where the sum of `earlier` saturates, the deadline that starts first is still the earlier one. -/
theorem longest_budgets_end_in_order : (longest 0 (by decide)).StartedBy ⟨2, by decide, by decide⟩
      ∧ (longest 1 (by decide)).StartedBy ⟨2, by decide, by decide⟩
      ∧ ((longest 0 (by decide)).earlier (longest 1 (by decide))).timeLeft ⟨2, by decide, by decide⟩ =
        min ((longest 0 (by decide)).timeLeft ⟨2, by decide, by decide⟩)
          ((longest 1 (by decide)).timeLeft ⟨2, by decide, by decide⟩) := by
  have h0 : (longest 0 (by decide)).StartedBy ⟨2, by decide, by decide⟩ := by decide
  have h1 : (longest 1 (by decide)).StartedBy ⟨2, by decide, by decide⟩ := by decide
  have h := provider_deadline_is_its_end_point (longest 0 (by decide)) (longest 1 (by decide)) .noDeadline _ h0 h1
  exact ⟨h0, h1, h.2.2.2.2.2⟩

end ProviderDeadline

end Unica.WorkControl
