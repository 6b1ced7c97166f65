import Unica.Lib.Active
import Unica.Redaction.Stream
import Mathlib

/-!
# Redaction hides the value of a secret

However a text is cut into chunks, the redactor writes the same. A run of name letters that
is the name of a secret is recognised although parts of it are passed on while it is read,
and what stands behind its separator reaches the output as a mark only.
-/

namespace Unica.Redaction

open Lib State List Char Bool

variable {s : State} {k p a b v : Text} {c : Char} {kind : SecretValueKind} {pending : Text}

/-! ## Chunks -/

theorem pushChunk_append : s.pushChunk (a ++ b) =
    (((s.pushChunk a).1.pushChunk b).1, (s.pushChunk a).2 ++ ((s.pushChunk a).1.pushChunk b).2) := by
  induction a generalizing s with
  | nil => rfl
  | cons ch rest ih => simp [pushChunk, ih]

/-- The output depends on the text, not on its chunks. -/
theorem stream_eq (chunks : List Text) : s.stream chunks =
    (s.pushChunk chunks.flatten).2 ++ (s.pushChunk chunks.flatten).1.finish := by
  induction chunks generalizing s with
  | nil => rfl
  | cons chunk rest ih =>
    rw [flatten_cons, pushChunk_append]
    simp [stream, ih]

/-! ## Names -/

theorem lower_append : toAsciiLowercase (a ++ b) = toAsciiLowercase a ++ toAsciiLowercase b :=
  map_append

theorem lower_length : (toAsciiLowercase a).length = a.length := length_map _

theorem containsSubstringSecretKey_iff :
    containsSubstringSecretKey k = true ↔ Occurs substringSecretKeys (toAsciiLowercase k) := by
  simp [containsSubstringSecretKey, contains, Occurs]

theorem exactKeyName_suffix : exactKeyName k <:+ k := by
  unfold exactKeyName
  split
  · exact (suffix_cons _ _).trans (suffix_cons _ _)
  · exact suffix_cons _ _
  · exact suffix_refl _

theorem exactKeyName_plain {x : Char} (h : x ≠ '-') : exactKeyName (x :: p) = x :: p := by
  unfold exactKeyName
  split <;> simp_all

theorem exactKeyName_dash {y : Char} (h : y ≠ '-') : exactKeyName ('-' :: y :: p) = y :: p := by
  unfold exactKeyName
  split <;> simp_all

theorem exactKeyName_prefix (h : p <+: k) : exactKeyName p <+: exactKeyName k := by
  obtain ⟨rest, rfl⟩ := h
  rcases p with _ | ⟨x, p⟩
  · exact nil_prefix
  by_cases hx : x = '-'
  · subst hx
    rcases p with _ | ⟨y, p⟩
    · exact nil_prefix
    by_cases hy : y = '-'
    · subst hy
      exact prefix_append p rest
    · rw [cons_append, cons_append, exactKeyName_dash hy, exactKeyName_dash hy]
      exact prefix_append (y :: p) rest
  · rw [cons_append, exactKeyName_plain hx, exactKeyName_plain hx]
    exact prefix_append (x :: p) rest

/-- Reading the name of an exact secret, every part of it may become one. -/
theorem isPossible_of_starting (hk : isExactSecretKey k = true) (h : p <+: k) :
    isPossibleExactSecretKey p = true := by
  obtain ⟨key, hkey, heq⟩ := any_eq_true.mp hk
  obtain ⟨rest, hrest⟩ := exactKeyName_prefix h
  have hlower : toAsciiLowercase key = toAsciiLowercase (exactKeyName p) ++ toAsciiLowercase rest := by
    rw [of_decide_eq_true heq, ← hrest, lower_append]
  have hlength : (exactKeyName p).length ≤ key.length := by
    have := congrArg length hlower
    simp only [length_append, lower_length] at this
    omega
  refine any_eq_true.mpr ⟨key, hkey, and_eq_true _ _ |>.mpr ⟨decide_eq_true hlength, ?_⟩⟩
  refine decide_eq_true ?_
  unfold toAsciiLowercase at hlower ⊢
  rw [map_take, hlower, ← length_map toLower, take_left]

/-! ## What the matcher retains -/

/-- The suffix of this length is what some secret starts with. -/
def Starts (pending : Text) (length : Nat) : Prop :=
  length ≤ pending.length ∧ ∃ key ∈ substringSecretKeys, length ≤ key.length ∧
    toAsciiLowercase (key.take length) = toAsciiLowercase (pending.drop (pending.length - length))

theorem retainedLength_succ {n : Nat} [Decidable (Starts pending (n + 1))] :
    retainedLength pending (n + 1) =
      if Starts pending (n + 1) then n + 1 else retainedLength pending n := by
  rw [retainedLength]
  simp [Starts, eqIgnoreAsciiCase]

theorem retainedLength_le_length {n : Nat} : retainedLength pending n ≤ pending.length := by
  classical
  induction n with
  | zero => exact Nat.zero_le _
  | succ n ih =>
    rw [retainedLength_succ]
    split
    · rename_i h
      exact h.1
    · exact ih

theorem le_retainedLength {length n : Nat} (h : Starts pending length)
    (hle : length ≤ n) : length ≤ retainedLength pending n := by
  classical
  induction n with
  | zero => exact hle
  | succ n ih =>
    rw [retainedLength_succ]
    split
    · exact hle
    · rename_i hnot
      have hne : length ≠ n + 1 := by
        rintro rfl
        exact hnot h
      exact ih (by omega)

theorem secret_lower {key : Text} (h : key ∈ substringSecretKeys) :
    toAsciiLowercase key = key ∧ key.length ≤ maxRetainedKeyBytes := by
  revert key
  decide

theorem retain_keeps : Keeps substringSecretKeys (toAsciiLowercase p)
    (toAsciiLowercase (retainSecretKeySuffix p).1) := by
  have hlength : (retainSecretKeySuffix p).1.length = retainedLength p maxRetainedKeyBytes := by
    have hle := @retainedLength_le_length p maxRetainedKeyBytes
    simp only [retainSecretKeySuffix, length_drop]
    omega
  refine ⟨(drop_suffix _ _).map _, fun key hkey x hx hpre => ?_⟩
  refine suffix_of_suffix_length_le hx ((drop_suffix _ _).map _) ?_
  obtain ⟨hlower, hmax⟩ := secret_lower hkey
  rw [lower_length, hlength]
  refine le_retainedLength ⟨?_, key, hkey, hpre.length_le, ?_⟩ (hpre.length_le.trans hmax)
  · have := hx.length_le
    rwa [lower_length] at this
  · -- both are the suffix itself
    have htake : toAsciiLowercase (key.take x.length) = x := by
      unfold toAsciiLowercase at hlower ⊢
      rw [map_take, hlower]
      exact (prefix_iff_eq_take.mp hpre).symm
    have hdrop : toAsciiLowercase (p.drop (p.length - x.length)) = x := by
      have := suffix_iff_eq_drop.mp hx
      rw [lower_length] at this
      unfold toAsciiLowercase at this ⊢
      rw [map_drop]
      exact this.symm
    rw [htake, hdrop]

/-! ## Reading a name -/

/-- What the machine knows after the letters `p` of a name. -/
inductive Reading (p : Text) : State → Prop where
  | confirmed (h : Occurs substringSecretKeys (toAsciiLowercase p)) : Reading p .confirmedSecretKey
  | candidate {pending : Text} {exactKey : ExactKeyStatus}
      (h : ¬Occurs substringSecretKeys (toAsciiLowercase p))
      (keeps : Keeps substringSecretKeys (toAsciiLowercase p) (toAsciiLowercase pending))
      (whole : exactKey = .possible → pending = p)
      (discarded : exactKey = .discarded → ∃ q, q <+: p ∧ isPossibleExactSecretKey q = false) :
      Reading p (.candidate pending exactKey)

/-- One more letter, before it is known whether the name goes on. -/
theorem advanceCandidate_reading {exactKey : ExactKeyStatus}
    (hoccurs : Occurs substringSecretKeys (toAsciiLowercase p) ↔
      Occurs substringSecretKeys (toAsciiLowercase pending))
    (hkeeps : Keeps substringSecretKeys (toAsciiLowercase p) (toAsciiLowercase pending))
    (hwhole : exactKey = .possible → pending = p)
    (hdiscarded : exactKey = .discarded → ∃ q, q <+: p ∧ isPossibleExactSecretKey q = false) :
    Reading p (advanceCandidate pending exactKey).1 := by
  unfold advanceCandidate
  by_cases hsecret : containsSubstringSecretKey pending = true
  · rw [if_pos hsecret]
    exact .confirmed (hoccurs.mpr (containsSubstringSecretKey_iff.mp hsecret))
  rw [if_neg hsecret]
  have hnot : ¬Occurs substringSecretKeys (toAsciiLowercase p) := fun h =>
    hsecret (containsSubstringSecretKey_iff.mpr (hoccurs.mp h))
  cases hstatus : exactKey.advance pending with
  | possible =>
    refine .candidate hnot hkeeps (fun _ => hwhole ?_) nofun
    cases exactKey with
    | possible => rfl
    | discarded => cases hstatus
  | discarded =>
    refine .candidate hnot (hkeeps.trans retain_keeps) nofun fun _ => ?_
    cases exactKey with
    | discarded => exact hdiscarded rfl
    | possible =>
      refine ⟨p, prefix_refl _, ?_⟩
      rw [← hwhole rfl]
      simp only [ExactKeyStatus.advance] at hstatus
      by_contra hpossible
      rw [if_pos (by simpa using hpossible)] at hstatus
      cases hstatus

theorem Reading.push (h : Reading p s) (hc : secretKeyChar c = true) : Reading (p ++ [c]) (s.push c).1 := by
  cases h with
  | confirmed hoccurs =>
    simp only [push, hc, if_true]
    refine .confirmed (hoccurs.mono ?_)
    rw [lower_append]
    exact (prefix_append _ _).isInfix
  | @candidate pending exactKey hnot hkeeps hwhole hdiscarded =>
    simp only [push, hc, if_true]
    refine advanceCandidate_reading ?_ ?_ (fun h => by rw [hwhole h]) fun h => ?_
    · rw [lower_append, lower_append]
      exact hkeeps.occurs_snoc_iff hnot
    · rw [lower_append, lower_append]
      exact hkeeps.snoc
    · obtain ⟨q, hq, hno⟩ := hdiscarded h
      exact ⟨q, hq.trans (prefix_append _ _), hno⟩

/-- The whole name is read. -/
theorem reading_name (hk : ∀ c ∈ k, secretKeyChar c = true) (hne : k ≠ []) :
    Reading k (text.pushChunk k).1 := by
  induction k using reverseRecOn with
  | nil => exact absurd rfl hne
  | append_singleton p c ih =>
    have hc := hk c (mem_append_right _ mem_cons_self)
    rw [pushChunk_append]
    by_cases hp : p = []
    · subst hp
      change Reading [c] (text.push c).1
      simp only [push, hc, if_true]
      exact advanceCandidate_reading Iff.rfl .self (fun _ => rfl) nofun
    · exact (ih (fun c' hc' => hk c' (mem_append_left _ hc')) hp).push hc

/-! ## The value -/

/-- What ends a value behind the name depends on the name. -/
def keyKind (k : Text) : SecretValueKind := if isConnectionKey k then .connection else .other

def separator (c : Char) : Bool := c == '=' || c == ':' || isWhitespace c

/-- A value that no delimiter of its kind ends. -/
structure Value (kind : SecretValueKind) (v : Text) : Prop where
  start : ∃ c rest, v = c :: rest ∧ isWhitespace c = false
  undelimited : ∀ c ∈ v, secretValueDelimiter c kind = false

/-- A name was recognised and its value is to come. -/
inductive Awaits (kind : SecretValueKind) : State → Prop where
  | separated : Awaits kind (.redactingSecretValue .pending kind)
  | spaced : Awaits kind (.afterSecretKey kind)

theorem whitespace_not_key (h : isWhitespace c = true) : secretKeyChar c = false := by
  have hval : c.val.toNat = c.toNat := rfl
  simp only [isWhitespace, or_eq_true, and_eq_true, decide_eq_true_eq, beq_iff_eq] at h
  simp only [secretKeyChar, isAlphanum, isAlpha, isUpper, isLower, isDigit,
    or_eq_false_iff, and_eq_false_iff, decide_eq_false_iff_not, beq_eq_false_iff_ne,
    ge_iff_le, UInt32.le_iff_toNat_le, ne_eq, ← toNat_inj, hval]
  refine ⟨⟨⟨⟨?_, ?_⟩, ?_⟩, ?_⟩, ?_⟩ <;> simp <;> omega

theorem separator_not_key (h : separator c = true) : secretKeyChar c = false := by
  simp only [separator, or_eq_true, beq_iff_eq] at h
  rcases h with (rfl | rfl) | h
  · decide
  · decide
  · exact whitespace_not_key h

theorem afterKey_awaits (h : separator c = true) : Awaits kind (afterKey c kind).1 := by
  unfold afterKey
  by_cases hsign : (c == '=' || c == ':') = true
  · rw [if_pos hsign]
    exact .separated
  · rw [if_neg hsign, if_pos]
    · exact .spaced
    · simp only [separator, or_eq_true] at h hsign
      exact h.resolve_left hsign

theorem mem_exactKeyName : k = exactKeyName k ∨ k = '-' :: exactKeyName k ∨
    k = '-' :: '-' :: exactKeyName k := by
  unfold exactKeyName
  split
  · exact .inr (.inr rfl)
  · exact .inr (.inl rfl)
  · exact .inl rfl

theorem connection_not_substring (h : isConnectionKey k = true) :
    ¬Occurs substringSecretKeys (toAsciiLowercase k) := by
  have hname : toAsciiLowercase (exactKeyName k) = "connection".toList :=
    (of_decide_eq_true h).trans (by decide)
  have hlower : toAsciiLowercase k ∈ ["connection".toList, "-connection".toList,
      "--connection".toList] := by
    rcases mem_exactKeyName (k := k) with hk | hk | hk
    · rw [hk, hname]
      decide
    · rw [hk, toAsciiLowercase, map_cons, ← toAsciiLowercase, hname]
      decide
    · rw [hk, toAsciiLowercase, map_cons, map_cons, ← toAsciiLowercase, hname]
      decide
  have hnone : ∀ t ∈ ["connection".toList, "-connection".toList, "--connection".toList],
      ¬∃ w ∈ substringSecretKeys, w <:+: t := by
    decide
  exact hnone _ hlower

/-- The letters that were read and not yet passed on. -/
def State.held : State → Text
  | .candidate pending _ => pending
  | _ => []

/-- No secret word holds a dash, so that one in the name stands behind its dashes. -/
theorem occurs_exactKeyName (h : Occurs substringSecretKeys (toAsciiLowercase k)) :
    Occurs substringSecretKeys (toAsciiLowercase (exactKeyName k)) := by
  have hdash : ∀ {t}, Occurs substringSecretKeys (toAsciiLowercase ('-' :: t)) →
      Occurs substringSecretKeys (toAsciiLowercase t) := by
    rintro t ⟨w, hw, hinfix⟩
    refine ⟨w, hw, (infix_cons_iff.mp hinfix).resolve_left fun hpre => ?_⟩
    have hnone : ∀ w ∈ substringSecretKeys, w ≠ [] ∧ '-' ∉ w := by decide
    obtain ⟨hne, hno⟩ := hnone w hw
    rcases prefix_cons_iff.mp hpre with rfl | ⟨w', rfl, -⟩
    · exact hne rfl
    · exact hno mem_cons_self
  rcases mem_exactKeyName with hk | hk | hk
  · rwa [← hk]
  · rw [hk] at h
    exact hdash h
  · rw [hk] at h
    exact hdash (hdash h)

/-- A name `is_secret_key` accepts without its dashes is exact or holds a secret word. -/
theorem isSecretKey_iff : isSecretKey (exactKeyName k) = true ↔
    isExactSecretKey k = true ∨ Occurs substringSecretKeys (toAsciiLowercase k) := by
  have hlower : ∀ key ∈ exactSecretKeys, toAsciiLowercase key = key := by decide
  rw [isSecretKey, or_eq_true_iff]
  constructor
  · rintro (hexact | hsub)
    · have hmem : toAsciiLowercase (exactKeyName k) ∈ exactSecretKeys := by simpa using hexact
      exact .inl (any_eq_true.mpr ⟨_, hmem, decide_eq_true (hlower _ hmem)⟩)
    · right
      exact (containsSubstringSecretKey_iff.mp hsub).mono ((exactKeyName_suffix.map _).isInfix)
  · rintro (hexact | hoccurs)
    · left
      obtain ⟨key, hkey, heq⟩ := any_eq_true.mp hexact
      rw [← of_decide_eq_true heq, hlower key hkey]
      exact contains_iff_mem.mpr hkey
    · exact .inr (containsSubstringSecretKey_iff.mpr (occurs_exactKeyName hoccurs))

/-- What becomes of the letter behind a name, by the policy. -/
def policyStep (k : Text) (c : Char) : Push :=
  if isSecretKey (exactKeyName k) then afterKey c (keyKind k) else (.text, [c])

/-- The machine does with the letter behind a name what the policy says of the name. -/
theorem push_after_name (hk : ∀ c ∈ k, secretKeyChar c = true) (hc : secretKeyChar c = false) :
    (text.pushChunk k).1.push c =
      ((policyStep k c).1, (text.pushChunk k).1.held ++ (policyStep k c).2) := by
  unfold policyStep
  by_cases hne : k = []
  · subst hne
    simp only [pushChunk, push, hc, false_eq_true, if_false]
    rfl
  have hread := reading_name hk hne
  generalize (text.pushChunk k).1 = s at hread
  cases hread with
  | confirmed hoccurs =>
    have hkind : keyKind k = .other := if_neg fun h => connection_not_substring h hoccurs
    rw [if_pos (isSecretKey_iff.mpr (.inr hoccurs)), hkind]
    simp only [push, hc, false_eq_true, if_false]
    rfl
  | @candidate pending exactKey hno hkeeps hwhole hdiscarded =>
    simp only [push, hc, false_eq_true, if_false]
    by_cases hsecret : isSecretKey (exactKeyName k) = true
    · have hexact := (isSecretKey_iff.mp hsecret).resolve_right hno
      rw [if_pos hsecret]
      cases exactKey with
      | discarded =>
        obtain ⟨q, hq, hnever⟩ := hdiscarded rfl
        rw [isPossible_of_starting hexact hq] at hnever
        cases hnever
      | possible =>
        obtain rfl := hwhole rfl
        simp only [hexact, decide_true, Bool.and_self, if_true]
        rfl
    · rw [if_neg hsecret, if_neg]
      · rfl
      intro hboth
      obtain ⟨hpossible, hexact⟩ := and_eq_true _ _ |>.mp hboth
      obtain rfl := hwhole (of_decide_eq_true hpossible)
      exact hsecret (isSecretKey_iff.mpr (.inl hexact))

/-- A name `is_secret_key` accepts is recognised when its separator comes. -/
theorem awaits_after_name (hk : ∀ c ∈ k, secretKeyChar c = true)
    (hsecret : isSecretKey (exactKeyName k) = true) (hc : separator c = true) :
    Awaits (keyKind k) (text.pushChunk (k ++ [c])).1 := by
  rw [pushChunk_append]
  change Awaits (keyKind k) ((text.pushChunk k).1.push c).1
  rw [push_after_name hk (separator_not_key hc), policyStep, if_pos hsecret]
  exact afterKey_awaits hc

/-- White space before the value is passed on. -/
theorem Awaits.spaces (h : Awaits kind s) {spaces : Text} (hs : ∀ c ∈ spaces, isWhitespace c = true) :
    Awaits kind (s.pushChunk spaces).1 := by
  induction spaces generalizing s with
  | nil => exact h
  | cons c rest ih =>
    have hc := hs c mem_cons_self
    refine ih ?_ fun c' hc' => hs c' (mem_cons_of_mem _ hc')
    cases h with
    | separated =>
      simp only [redactValue, hc, if_true]
      exact .separated
    | spaced =>
      simp only [afterKeyValue, hc, if_true]
      exact .spaced

theorem written_silent (hv : ∀ c ∈ v, secretValueDelimiter c kind = false) :
    (redactingSecretValue .written kind).pushChunk v =
      (.redactingSecretValue .written kind, []) := by
  induction v with
  | nil => rfl
  | cons c rest ih =>
    have hc := hv c mem_cons_self
    simp [pushChunk, push, redactValue, hc, ih fun c' hc' => hv c' (mem_cons_of_mem _ hc')]

/-- A value leaves the mark and nothing of itself, in the output and in the state. -/
theorem Awaits.value (h : Awaits kind s) (hv : Value kind v) :
    s.pushChunk v = (.redactingSecretValue .written kind, redacted) := by
  obtain ⟨c, rest, rfl, hspace⟩ := hv.start
  have hc := hv.undelimited c mem_cons_self
  have hrest := written_silent fun c' hc' => hv.undelimited c' (mem_cons_of_mem _ hc')
  cases h with
  | separated =>
    simp [pushChunk, push, redactValue, hspace, hc, hrest]
  | spaced =>
    simp [pushChunk, push, afterKeyValue, hspace, hc, hrest]

/-! ## Secrecy -/

/-- **The output does not depend on the value of a secret**, wherever the text is cut. The separator
may be followed by white space, and anything may follow the value. -/
theorem redaction_hides_value (u k spaces v₁ v₂ r : Text) (sep : Char) (chunks₁ chunks₂ : List Text)
    (hu : (text.pushChunk u).1 = .text) (hk : ∀ c ∈ k, secretKeyChar c = true)
    (hsecret : isSecretKey (exactKeyName k) = true) (hsep : separator sep = true)
    (hspaces : ∀ c ∈ spaces, isWhitespace c = true)
    (hv₁ : Value (keyKind k) v₁) (hv₂ : Value (keyKind k) v₂)
    (h₁ : chunks₁.flatten = u ++ (k ++ [sep]) ++ spaces ++ v₁ ++ r)
    (h₂ : chunks₂.flatten = u ++ (k ++ [sep]) ++ spaces ++ v₂ ++ r) :
    text.stream chunks₁ = text.stream chunks₂ := by
  have hawaits := (awaits_after_name hk hsecret hsep).spaces hspaces
  have hpush : ∀ v, Value (keyKind k) v → text.pushChunk (u ++ (k ++ [sep]) ++ spaces ++ v ++ r) =
        (((redactingSecretValue .written (keyKind k)).pushChunk r).1,
          (text.pushChunk u).2 ++ (text.pushChunk (k ++ [sep])).2
            ++ ((text.pushChunk (k ++ [sep])).1.pushChunk spaces).2 ++ redacted
            ++ ((redactingSecretValue .written (keyKind k)).pushChunk r).2) := by
    intro v hv
    simp only [pushChunk_append (a := _ ++ _ ++ _ ++ _), pushChunk_append (a := _ ++ _ ++ _),
      pushChunk_append (a := u ++ _), pushChunk_append (a := u), hu, hawaits.value hv]
  rw [stream_eq, stream_eq, h₁, h₂, hpush v₁ hv₁, hpush v₂ hv₂]

instance {p : Char → Prop} [DecidablePred p] (text : Text) : Decidable (∀ c ∈ text, p c) :=
  decidableBAll p text

theorem redaction_hides_value_pwd :
    text.stream ["log; --p".toList, "wd = hun".toList, "ter2;x".toList] =
      text.stream ["log; --pwd = 12;x".toList] :=
  redaction_hides_value "log; ".toList "--pwd".toList [] "= hunter2".toList "= 12".toList ";x".toList
    ' ' _ _ (by decide +kernel) (by decide) (by decide +kernel) (by decide) nofun
    ⟨⟨_, _, rfl, by decide⟩, by decide +kernel⟩ ⟨⟨_, _, rfl, by decide⟩, by decide +kernel⟩
    (by decide) (by decide)

end Unica.Redaction
