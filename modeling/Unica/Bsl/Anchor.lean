import Mathlib.Data.List.Infix
import Mathlib.Algebra.Ring.Nat

/-!
# Anchors are found in any spelling of a line ending

`unica-bsl`, `canonical_occurrences`: an anchor is searched in the text as it is written, where
a line ending may be spelled CRLF, CR or LF. The search is substring search in the text with
every line ending spelled LF.
-/

namespace Unica.Bsl

open List Option

/-- `str::replace` of CRLF by LF. -/
def replaceCrLf : List Char → List Char
  | '\r' :: '\n' :: rest => '\n' :: replaceCrLf rest
  | c :: rest => c :: replaceCrLf rest
  | [] => []

def canonical (c : Char) : Char := if c = '\r' then '\n' else c

def canonicalizeEol (content : List Char) : List Char := (replaceCrLf content).map canonical

def byteLen (text : List Char) : Nat := (text.map Char.utf8Size).sum

structure AnchorOccurrence where
  start : Nat
  stop : Nat

/-- `canonical_match_end`: the needle, and the text from the offset on. -/
def canonicalMatchEnd (offset : Nat) : List Char → List Char → Option Nat
  | [], _ => some offset
  | '\n' :: needle, '\r' :: '\n' :: rest => canonicalMatchEnd (offset + 2) needle rest
  | '\n' :: needle, '\r' :: rest => canonicalMatchEnd (offset + 1) needle rest
  | expected :: needle, actual :: rest =>
      if actual = expected then canonicalMatchEnd (offset + actual.utf8Size) needle rest else none
  | _, [] => none

/-- The place behind `before`, unless it is the middle of a CRLF. -/
def occurrenceAt (needle before rest : List Char) : Option AnchorOccurrence :=
  if rest.head? = some '\n' ∧ before.getLast? = some '\r' then none
  else (canonicalMatchEnd (byteLen before) needle rest).map (.mk (byteLen before))

def occurrencesFrom (needle before : List Char) : List Char → List AnchorOccurrence
  | [] => []
  | c :: rest => (occurrenceAt needle before (c :: rest)).toList ++
      occurrencesFrom needle (before ++ [c]) rest

def canonicalOccurrences (text needle : List Char) : List AnchorOccurrence :=
  if needle = [] then [] else occurrencesFrom needle [] text

theorem byteLen_append {a b : List Char} : byteLen (a ++ b) = byteLen a + byteLen b := by
  rw [byteLen, map_append, sum_append]
  rfl

/-! ## Line endings -/

/-- A cut between the two letters of a CRLF. -/
def Splits (a b : List Char) : Prop := b.head? = some '\n' ∧ a.getLast? = some '\r'

/-- A text starts with a letter, or with a CRLF that is read as one. -/
inductive Opens : Char → List Char → List Char → Prop where
  | pair {rest : List Char} : Opens '\n' ['\r', '\n'] rest
  | one {c : Char} {rest : List Char} (h : ¬Splits [c] rest) : Opens (canonical c) [c] rest

variable {text needle rest before a b u : List Char} {x : Char} {offset : Nat} {o : AnchorOccurrence}

theorem exists_opens (c : Char) (rest : List Char) :
    ∃ x u rest', c :: rest = u ++ rest' ∧ Opens x u rest' := by
  by_cases h : Splits [c] rest
  · cases rest with
    | nil => cases h.1
    | cons d rest =>
      obtain rfl : d = '\n' := some.inj h.1
      obtain rfl : c = '\r' := some.inj h.2
      exact ⟨_, _, rest, rfl, .pair⟩
  · exact ⟨_, _, rest, rfl, .one h⟩

theorem Splits.append (h : Splits a b) : Splits (u ++ a) b := by
  refine ⟨h.1, ?_⟩
  rw [getLast?_append, h.2]
  rfl

theorem splits_append_iff (ha : a ≠ []) : Splits (u ++ a) b ↔ Splits a b := by
  rw [Splits, getLast?_append_of_ne_nil _ ha, Splits]

namespace Opens

theorem canonicalizeEol_eq (h : Opens x u rest) :
    canonicalizeEol (u ++ rest) = x :: canonicalizeEol rest := by
  cases h with
  | pair => rfl
  | @one c _ h =>
    have hone : replaceCrLf (c :: rest) = c :: replaceCrLf rest := by
      rw [replaceCrLf]
      rintro rest' rfl rfl
      exact h ⟨rfl, rfl⟩
    change (replaceCrLf (c :: rest)).map canonical = _
    rw [hone]
    rfl

/-- The matcher reads the same letter, or refuses it. -/
theorem matchEnd_eq (h : Opens x u rest) {e : Char} (he : e ≠ '\r') :
    canonicalMatchEnd offset (e :: needle) (u ++ rest) =
      if x = e then canonicalMatchEnd (offset + byteLen u) needle rest else none := by
  cases h with
  | pair =>
    by_cases hx : e = '\n'
    · subst hx
      rfl
    · simp [canonicalMatchEnd, hx, Ne.symm hx, Ne.symm he]
  | @one c _ h =>
    by_cases hc : c = '\r'
    · subst hc
      by_cases hx : e = '\n'
      · subst hx
        change canonicalMatchEnd offset ('\n' :: needle) ('\r' :: rest) = canonicalMatchEnd _ needle rest
        rw [canonicalMatchEnd]
        · rfl
        · rintro rest' rfl
          exact h ⟨rfl, rfl⟩
      · simp [canonicalMatchEnd, hx, Ne.symm hx, Ne.symm he, canonical]
    · have hsame : canonical c = c := if_neg hc
      simp [canonicalMatchEnd, hc, hsame, byteLen]

/-- A cut that splits no CRLF has the whole first letter before it. -/
theorem cut (h : Opens x u rest) (hcut : u ++ rest = a ++ b) (ha : a ≠ []) (hs : ¬Splits a b) :
    ∃ a', a = u ++ a' ∧ rest = a' ++ b ∧ ¬Splits a' b := by
  suffices hwhole : ∃ a', a = u ++ a' ∧ rest = a' ++ b by
    obtain ⟨a', rfl, rfl⟩ := hwhole
    exact ⟨a', rfl, rfl, fun h => hs h.append⟩
  cases a with
  | nil => exact absurd rfl ha
  | cons c a =>
    cases h with
    | pair =>
      obtain ⟨rfl, htail⟩ := cons.inj hcut
      cases a with
      | nil =>
        obtain rfl : '\n' :: rest = b := htail
        exact absurd ⟨rfl, rfl⟩ hs
      | cons d a =>
        obtain ⟨rfl, hrest⟩ := cons.inj htail
        exact ⟨a, rfl, hrest⟩
    | one h =>
      obtain ⟨rfl, hrest⟩ := cons.inj hcut
      exact ⟨a, rfl, hrest⟩

theorem left (h : Opens x u (a ++ b)) : Opens x u a := by
  cases h with
  | pair => exact .pair
  | one h =>
    refine .one fun hs => h ⟨?_, hs.2⟩
    rw [head?_append, hs.1]
    rfl

theorem uncut (h : Opens x u (a ++ b)) (hs : ¬Splits a b) : ¬Splits (u ++ a) b := by
  by_cases ha : a = []
  · subst ha
    cases h with
    | pair => exact fun h => absurd h.2 (by decide)
    | one h => exact h
  · rwa [splits_append_iff ha]

end Opens

theorem canonicalizeEol_eq_nil (h : canonicalizeEol a = []) : a = [] := by
  cases a with
  | nil => rfl
  | cons c a =>
    obtain ⟨x, u, rest, hopen, hu⟩ := exists_opens c a
    rw [hopen, hu.canonicalizeEol_eq] at h
    cases h

/-! ## The matcher -/

section

variable (hcr : '\r' ∉ needle)
include hcr

/-- The matcher reads a spelling of the needle that ends in the middle of no CRLF. -/
theorem matchEnd_iff {stop : Nat} :
    canonicalMatchEnd offset needle text = some stop ↔ ∃ mid after, text = mid ++ after ∧
      stop = offset + byteLen mid ∧ ¬Splits mid after ∧ canonicalizeEol mid = needle := by
  induction needle generalizing offset text with
  | nil =>
    rw [canonicalMatchEnd, some.injEq]
    constructor
    · rintro rfl
      exact ⟨[], text, rfl, rfl, fun h => absurd h.2 (by decide), rfl⟩
    · rintro ⟨mid, after, -, rfl, -, hmid⟩
      rw [canonicalizeEol_eq_nil hmid]
      rfl
  | cons e needle ih =>
    obtain ⟨he, hmore⟩ := not_or.mp (mem_cons.not.mp hcr)
    have hne : ∀ {mid}, canonicalizeEol mid = e :: needle → mid ≠ [] := by
      rintro mid hmid rfl
      cases hmid
    cases text with
    | nil =>
      constructor
      · simp [canonicalMatchEnd]
      · rintro ⟨mid, after, hnil, -, -, hmid⟩
        exact absurd (append_eq_nil_iff.mp hnil.symm).1 (hne hmid)
    | cons c text =>
      obtain ⟨x, u, rest, hopen, hu⟩ := exists_opens c text
      rw [hopen, hu.matchEnd_eq (Ne.symm he)]
      constructor
      · intro h
        obtain ⟨rfl, hrest⟩ := ite_none_right_eq_some.mp h
        obtain ⟨mid, after, rfl, rfl, hs, rfl⟩ := (ih hmore).mp hrest
        refine ⟨u ++ mid, after, (append_assoc _ _ _).symm, ?_, hu.uncut hs, hu.left.canonicalizeEol_eq⟩
        rw [byteLen_append, Nat.add_assoc]
      · rintro ⟨mid, after, hcut, rfl, hs, hmid⟩
        obtain ⟨mid', rfl, rfl, hs'⟩ := hu.cut hcut (hne hmid) hs
        rw [hu.left.canonicalizeEol_eq] at hmid
        obtain ⟨rfl, rfl⟩ := cons.inj hmid
        rw [if_pos rfl, ih hmore]
        exact ⟨mid', after, rfl, by rw [byteLen_append, Nat.add_assoc], hs', rfl⟩

/-- It finds one exactly when the canonical text starts with the needle. -/
theorem matchEnd_isSome :
    (canonicalMatchEnd offset needle text).isSome = needle.isPrefixOf (canonicalizeEol text) := by
  induction needle generalizing offset text with
  | nil => rfl
  | cons e needle ih =>
    obtain ⟨he, hmore⟩ := not_or.mp (mem_cons.not.mp hcr)
    cases text with
    | nil =>
      rw [canonicalMatchEnd]
      · rfl
      · exact cons_ne_nil _ _
    | cons c text =>
      obtain ⟨x, u, rest, hopen, hu⟩ := exists_opens c text
      rw [hopen, hu.matchEnd_eq (Ne.symm he), hu.canonicalizeEol_eq, isPrefixOf_cons_cons, ← ih hmore]
      by_cases hx : x = e
      · rw [if_pos hx, hx, beq_self_eq_true, Bool.true_and]
      · rw [if_neg hx, beq_eq_false_iff_ne.mpr (Ne.symm hx)]
        rfl

/-! ## The search -/

theorem occurrenceAt_iff : occurrenceAt needle before text = some o ↔
    ∃ mid after, text = mid ++ after ∧ o = ⟨byteLen before, byteLen (before ++ mid)⟩ ∧
      ¬Splits before text ∧ ¬Splits mid after ∧ canonicalizeEol mid = needle := by
  rw [occurrenceAt, ite_none_left_eq_some, map_eq_some_iff]
  constructor
  · rintro ⟨hs, stop, hstop, rfl⟩
    obtain ⟨mid, after, rfl, rfl, hmid⟩ := (matchEnd_iff hcr).mp hstop
    exact ⟨mid, after, rfl, by rw [byteLen_append], hs, hmid⟩
  · rintro ⟨mid, after, rfl, rfl, hs, hmid⟩
    exact ⟨hs, _, (matchEnd_iff hcr).mpr ⟨mid, after, rfl, rfl, hmid⟩, by rw [byteLen_append]⟩

theorem occurrenceAt_length (hs : ¬Splits before text) :
    (occurrenceAt needle before text).toList.length =
      if needle.isPrefixOf (canonicalizeEol text) then 1 else 0 := by
  unfold Splits at hs
  rw [← matchEnd_isSome hcr, occurrenceAt, if_neg hs]
  cases canonicalMatchEnd (byteLen before) needle text <;> rfl

variable (hne : needle ≠ [])
include hne

theorem mem_occurrencesFrom :
    o ∈ occurrencesFrom needle before text ↔ ∃ a mid after, text = a ++ (mid ++ after) ∧
      o = ⟨byteLen (before ++ a), byteLen (before ++ a ++ mid)⟩ ∧ ¬Splits (before ++ a) (mid ++ after) ∧
      ¬Splits mid after ∧ canonicalizeEol mid = needle := by
  induction text generalizing before with
  | nil =>
    refine ⟨fun h => absurd h not_mem_nil, ?_⟩
    rintro ⟨a, mid, after, hnil, -, -, -, rfl⟩
    obtain rfl : mid = [] := by simp_all
    exact absurd rfl hne
  | cons c text ih =>
    rw [occurrencesFrom, mem_append, mem_toList, ih, occurrenceAt_iff hcr]
    constructor
    · rintro (⟨mid, after, ht, rfl, hs, hmid⟩ | ⟨a, mid, after, rfl, rfl, hs, hmid⟩)
      · exact ⟨[], mid, after, ht, by simp, by simpa [← ht] using hs, hmid⟩
      · exact ⟨c :: a, mid, after, rfl, by simp, by simpa using hs, hmid⟩
    · rintro ⟨a, mid, after, ht, rfl, hs, hmid⟩
      cases a with
      | nil => exact .inl ⟨mid, after, ht, by simp, by simpa [ht] using hs, hmid⟩
      | cons d a =>
        obtain ⟨rfl, rfl⟩ := cons.inj ht
        exact .inr ⟨a, mid, after, rfl, by simp, by simpa using hs, hmid⟩

theorem occurrencesFrom_sorted :
    (occurrencesFrom needle before text).Pairwise fun o o' => o.start < o'.start := by
  induction text generalizing before with
  | nil => exact .nil
  | cons c text ih =>
    refine pairwise_append.mpr ⟨?_, ih, ?_⟩
    · cases occurrenceAt needle before (c :: text) <;> simp
    · intro o ho o' ho'
      obtain ⟨_, _, -, rfl, -⟩ := (occurrenceAt_iff hcr).mp (mem_toList.mp ho)
      obtain ⟨a, mid, after, -, rfl, -⟩ := (mem_occurrencesFrom hcr hne).mp ho'
      have hpos : 0 < byteLen [c] := Nat.lt_of_lt_of_eq c.utf8Size_pos (Nat.add_zero _).symm
      change byteLen before < byteLen (before ++ [c] ++ a)
      rw [byteLen_append, byteLen_append]
      omega

/-- There is a place for every suffix of the canonical text that starts with the needle. -/
theorem occurrencesFrom_length (hs : ¬Splits before text) : (occurrencesFrom needle before text).length =
    (canonicalizeEol text).tails.countP needle.isPrefixOf := by
  have hcount : ∀ {x l}, (x :: l).tails.countP needle.isPrefixOf =
      (if needle.isPrefixOf (x :: l) then 1 else 0) + l.tails.countP needle.isPrefixOf := by
    intro x l
    rw [tails_cons, countP_cons, Nat.add_comm]
  have hbehind : ∀ {a c rest}, ¬Splits [c] rest → ¬Splits (a ++ [c]) rest := fun h hs =>
    h ((splits_append_iff (cons_ne_nil _ _)).mp hs)
  fun_induction replaceCrLf text generalizing before with
  | case1 rest ih =>
    have hmiddle : occurrenceAt needle (before ++ ['\r']) ('\n' :: rest) = none :=
      if_pos ⟨rfl, getLast?_concat⟩
    have hnext : ¬Splits (before ++ ['\r'] ++ ['\n']) rest := hbehind fun h => absurd h.2 (by decide)
    rw [occurrencesFrom, occurrencesFrom, hmiddle, length_append, occurrenceAt_length hcr hs,
      show canonicalizeEol ('\r' :: '\n' :: rest) = '\n' :: canonicalizeEol rest from rfl, hcount,
      ← ih hnext]
    rfl
  | case2 c rest hone ih =>
    have hwhole : ¬Splits [c] rest := by
      intro h
      cases rest with
      | nil => cases h.1
      | cons d rest => exact hone rest (some.inj h.2) (by rw [some.inj h.1])
    rw [occurrencesFrom, length_append, occurrenceAt_length hcr hs, ih (hbehind hwhole),
      show c :: rest = [c] ++ rest from rfl, (Opens.one hwhole).canonicalizeEol_eq, hcount]
  | case3 =>
    cases needle with
    | nil => exact absurd rfl hne
    | cons e needle => rfl

end

/-- **An anchor is found in every spelling, and nowhere else.** The places come in increasing order,
they are the ranges of letters that cut no CRLF and spell the needle, and there are as many as
the needle has occurrences in the canonical text. -/
theorem canonicalOccurrences_exact (text needle : List Char) (hne : needle ≠ []) (hcr : '\r' ∉ needle) :
    (canonicalOccurrences text needle).Pairwise (fun o o' => o.start < o'.start) ∧
    (∀ o, o ∈ canonicalOccurrences text needle ↔ ∃ before mid after, text = before ++ (mid ++ after) ∧
      o = ⟨byteLen before, byteLen (before ++ mid)⟩ ∧ ¬Splits before (mid ++ after) ∧
      ¬Splits (before ++ mid) after ∧ canonicalizeEol mid = needle) ∧
    (canonicalOccurrences text needle).length =
      (canonicalizeEol text).tails.countP needle.isPrefixOf := by
  rw [canonicalOccurrences, if_neg hne]
  refine ⟨occurrencesFrom_sorted hcr hne, fun o => ?_, occurrencesFrom_length hcr hne fun h => by cases h.2⟩
  rw [mem_occurrencesFrom hcr hne]
  refine exists_congr fun before => exists_congr fun mid => exists_congr fun after => ?_
  refine and_congr_right' (and_congr_right' (and_congr_right' (and_congr_left fun hmid => ?_)))
  rw [splits_append_iff]
  rintro rfl
  exact hne hmid.symm

/-- Two overlapping places, one of them over a CRLF. -/
theorem canonicalOccurrences_overlapping :
    (canonicalOccurrences "a\r\n\n\ra".toList ['\n', '\n']).length = 2 :=
  (canonicalOccurrences_exact _ ['\n', '\n'] (by decide) (by decide)).2.2.trans (by decide)

end Unica.Bsl
