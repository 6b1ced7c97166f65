import Unica.Redaction.Secrecy

/-!
# The matcher against the policy, and a second pass

The machine recognises a name while it reads it and keeps only a few letters of it; the
policy `is_secret_key` looks at the whole name. They agree on every run of name letters.
A second pass over the output of a first one goes through the same states, so that it
changes nothing.
-/

namespace Unica.Redaction

open Lib State List Char Bool Awaits UInt32

variable {s : State} {k p pending : Text} {c : Char} {kind : SecretValueKind} {exactKey : ExactKeyStatus}

/-! ## What is held back -/

/-- `retained_len`, in bytes. -/
def State.retainedLen (s : State) : Nat := (s.held.map Char.utf8Size).sum

theorem retain_append : (retainSecretKeySuffix p).2 ++ (retainSecretKeySuffix p).1 = p :=
  take_append_drop _ _

/-- Nothing of a candidate is lost. -/
theorem advanceCandidate_held :
    (advanceCandidate p exactKey).2 ++ (advanceCandidate p exactKey).1.held = p := by
  unfold advanceCandidate
  split
  · exact append_nil _
  · split
    · rfl
    · exact retain_append

theorem retainedLength_le {n : Nat} : retainedLength p n ≤ n := by
  induction n with
  | zero => exact Nat.le_refl _
  | succ n ih =>
    rw [retainedLength]
    split
    · exact Nat.le_refl _
    · exact ih.trans (Nat.le_succ n)

theorem length_le_exactKeyName : p.length ≤ (exactKeyName p).length + 2 := by
  unfold exactKeyName
  split
  · exact Nat.le_refl _
  · exact Nat.le_succ _
  · exact Nat.le_add_right _ _

/-- An exact secret with both dashes is the longest text that is held back. -/
theorem advanceCandidate_length : (advanceCandidate p exactKey).1.held.length ≤ 12 := by
  unfold advanceCandidate
  split
  · exact Nat.zero_le _
  split
  · rename_i hstatus
    have hpossible : isPossibleExactSecretKey p = true := by
      cases exactKey with
      | discarded => cases hstatus
      | possible =>
        by_contra hnot
        rw [ExactKeyStatus.advance, if_neg hnot] at hstatus
        cases hstatus
    obtain ⟨key, hkey, hle⟩ := any_eq_true.mp hpossible
    have hlong : ∀ key ∈ exactSecretKeys, key.length ≤ 10 := by decide
    have hname := of_decide_eq_true (and_eq_true _ _ |>.mp hle).1
    have hten := hlong key hkey
    have htwo := @length_le_exactKeyName p
    change p.length ≤ 12
    omega
  · have hmax := @retainedLength_le p maxRetainedKeyBytes
    have hten : maxRetainedKeyBytes ≤ 10 := by decide
    change (p.drop _).length ≤ 12
    rw [length_drop]
    omega

/-- Along a name, what is held back is a suffix of it, of at most twelve letters. -/
theorem held_name (hk : ∀ c ∈ k, secretKeyChar c = true) :
    (text.pushChunk k).1.held <:+ k ∧ (text.pushChunk k).1.held.length ≤ 12 := by
  induction k using reverseRecOn with
  | nil => exact ⟨suffix_refl _, Nat.zero_le _⟩
  | append_singleton p c ih =>
    have hc := hk c (mem_append_right _ mem_cons_self)
    have hp : ∀ c ∈ p, secretKeyChar c = true := fun c' hc' => hk c' (mem_append_left _ hc')
    have hsuffix := (ih hp).1
    have hmore : ∀ {q exactKey}, q <:+ p →
        (advanceCandidate (q ++ [c]) exactKey).1.held <:+ p ++ [c] := fun hq =>
      IsSuffix.trans ⟨_, advanceCandidate_held⟩ ((suffix_append_inj_of_length_eq rfl).mpr ⟨hq, rfl⟩)
    rw [pushChunk_append]
    change ((text.pushChunk p).1.push c).1.held <:+ _ ∧ ((text.pushChunk p).1.push c).1.held.length ≤ 12
    by_cases hne : p = []
    · subst hne
      simp only [pushChunk, push, hc, if_true]
      exact ⟨hmore nil_suffix, advanceCandidate_length⟩
    have hread := reading_name hp hne
    generalize (text.pushChunk p).1 = s at hread hsuffix
    cases hread with
    | confirmed =>
      simp only [push, hc, if_true]
      exact ⟨nil_suffix, Nat.zero_le _⟩
    | candidate =>
      simp only [push, hc, if_true]
      exact ⟨hmore hsuffix, advanceCandidate_length⟩

theorem utf8Size_of_key (h : secretKeyChar c = true) : c.utf8Size = 1 := by
  have hval : c.val.toNat = c.toNat := rfl
  rw [utf8Size_eq_one_iff, le_iff_toNat_le]
  simp only [secretKeyChar, isAlphanum, isAlpha, isUpper, isLower, isDigit,
    or_eq_true, and_eq_true, decide_eq_true_eq, beq_iff_eq, ge_iff_le,
    le_iff_toNat_le, ← toNat_inj, hval] at h
  simp at h ⊢
  omega

theorem retainedLen_name (hk : ∀ c ∈ k, secretKeyChar c = true) :
    (text.pushChunk k).1.retainedLen ≤ 12 := by
  obtain ⟨hsuffix, hlength⟩ := held_name hk
  have hone : ∀ c ∈ (text.pushChunk k).1.held, c.utf8Size = 1 := fun c hc =>
    utf8Size_of_key (hk c (hsuffix.subset hc))
  rw [retainedLen, map_congr_left hone]
  simpa using hlength

/-! ## The policy -/

/-- **The matcher is the policy.** The letter behind a run of name letters that starts in `Text`
goes to `after_secret_key` exactly when `is_secret_key` holds of the name without its dashes, so
that a separator opens the place of a secret value exactly then. While the name is read no more
than twelve bytes of it are held back. -/
theorem matcher_is_policy (k : Text) (hk : ∀ c ∈ k, secretKeyChar c = true) :
    (∀ c, secretKeyChar c = false → (text.pushChunk k).1.push c =
      ((policyStep k c).1, (text.pushChunk k).1.held ++ (policyStep k c).2)) ∧
    (∀ c, separator c = true → ((∃ kind, Awaits kind (text.pushChunk (k ++ [c])).1) ↔
      isSecretKey (exactKeyName k) = true)) ∧
    ∀ p, p <+: k → (text.pushChunk p).1.retainedLen ≤ 12 := by
  refine ⟨fun c hc => push_after_name hk hc, fun c hc => ?_, fun p hp => ?_⟩
  · refine ⟨?_, fun h => ⟨keyKind k, awaits_after_name hk h hc⟩⟩
    rintro ⟨kind, h⟩
    by_contra hno
    rw [pushChunk_append] at h
    change Awaits kind ((text.pushChunk k).1.push c).1 at h
    rw [push_after_name hk (separator_not_key hc), policyStep, if_neg hno] at h
    cases h
  · exact retainedLen_name fun c hc => hk c (hp.subset hc)

theorem matcher_is_policy_token : ∃ kind, Awaits kind (text.pushChunk ("--my_token_x".toList ++ ['='])).1 :=
  ((matcher_is_policy "--my_token_x".toList (by decide)).2.1 '=' (by decide)).mpr (by decide +kernel)

/-! ## A second pass -/

theorem redacted_value : Value kind redacted where
  start := ⟨'<', "redacted>".toList, rfl, by decide⟩
  undelimited := by cases kind <;> decide

theorem afterKey_held : (afterKey c kind).2 ++ (afterKey c kind).1.held = [c] := by
  unfold afterKey
  split
  · rfl
  split
  · rfl
  split
  · exact advanceCandidate_held
  · rfl

/-- A text that takes the machine the same step, and that the step wrote or holds back. -/
def Repeats (s : State) (next : Push) : Prop :=
  ∃ w, next.2 ++ next.1.held = s.held ++ w ∧ s.pushChunk w = next

theorem Repeats.letter {next : Push} (hpush : s.push c = next)
    (h : next.2 ++ next.1.held = s.held ++ [c]) : Repeats s next := by
  refine ⟨[c], h, ?_⟩
  simp [pushChunk, hpush]

/-- The letter is passed on and nothing is held back. -/
theorem Repeats.passes (next : State) (hpush : s.push c = (next, [c])) (hs : s.held = [])
    (hnext : next.held = []) : Repeats s (s.push c) := by
  refine .letter rfl ?_
  rw [hpush, hs, hnext]
  rfl

theorem Awaits.repeats (h : Awaits kind s) : Repeats s (.redactingSecretValue .written kind, redacted) := by
  refine ⟨redacted, ?_, h.value redacted_value⟩
  cases h <;> rfl

theorem push_repeats (s : State) (c : Char) : Repeats s (s.push c) := by
  cases s with
  | text =>
    refine .letter rfl ?_
    simp only [push]
    split
    · exact advanceCandidate_held
    · rfl
  | candidate pending exactKey =>
    refine .letter rfl ?_
    simp only [push]
    split
    · exact advanceCandidate_held
    split
    · rw [append_assoc, afterKey_held]
      rfl
    · exact append_nil _
  | confirmedSecretKey =>
    refine .letter rfl ?_
    simp only [push]
    split
    · rfl
    · exact afterKey_held
  | afterSecretKey kind =>
    -- past the white space, either the delimiter or the mark is written
    rcases hspace : isWhitespace c with _ | _
    · rcases hends : secretValueDelimiter c kind with _ | _
      · simp only [push, afterKeyValue, hspace, hends, false_eq_true, if_false]
        exact spaced.repeats
      · exact .passes .text (by simp [push, afterKeyValue, hspace, hends]) rfl rfl
    · exact .passes (.afterSecretKey kind) (by simp [push, afterKeyValue, hspace]) rfl rfl
  | redactingSecretValue marker kind =>
    cases marker with
    | written =>
      rcases hends : secretValueDelimiter c kind with _ | _
      · simp only [push, redactValue, hends, false_eq_true, if_false]
        exact ⟨[], rfl, rfl⟩
      · exact .passes .text (by simp [push, redactValue, hends]) rfl rfl
    | pending =>
      rcases hspace : isWhitespace c with _ | _
      · simp only [push, redactValue, hspace, false_eq_true, if_false]
        rcases hends : secretValueDelimiter c kind with _ | _
        · exact separated.repeats
        · -- the mark, then the delimiter in the state behind it
          refine ⟨redacted ++ [c], append_nil _, ?_⟩
          rw [pushChunk_append, separated.value redacted_value]
          simp [pushChunk, push, redactValue, hends]
      · exact .passes (.redactingSecretValue .pending kind)
          (by simp [push, redactValue, hspace]) rfl rfl

/-- The second pass goes through the states of the first one. -/
theorem pushChunk_output (t : Text) :
    text.pushChunk ((text.pushChunk t).2 ++ (text.pushChunk t).1.held) = text.pushChunk t := by
  induction t using reverseRecOn with
  | nil => rfl
  | append_singleton t c ih =>
    obtain ⟨w, hw, hstep⟩ := push_repeats (text.pushChunk t).1 c
    rw [pushChunk_append (a := t)]
    simp only [pushChunk, append_nil, append_assoc]
    rw [hw, ← append_assoc, pushChunk_append, ih, hstep]

/-- What `finish` writes is held back, or the mark of a value that did not come. -/
theorem finish_cases (s : State) : s.finish = s.held ∨
    ∃ kind, s = .redactingSecretValue .pending kind := by
  cases s with
  | redactingSecretValue marker kind =>
    cases marker with
    | pending => exact .inr ⟨kind, rfl⟩
    | written => exact .inl rfl
  | _ => exact .inl rfl

/-- **Redaction is idempotent.** -/
theorem redactor_idempotent (t : Text) : redactor (redactor t) = redactor t := by
  have hsecond := pushChunk_output t
  have hpass : ∀ t, redactor t = (text.pushChunk t).2 ++ (text.pushChunk t).1.finish := by
    intro t
    rw [redactor, stream_eq, flatten_singleton]
  rw [hpass (redactor t), hpass t]
  rcases finish_cases (text.pushChunk t).1 with hfinish | ⟨kind, hstate⟩
  · rw [hfinish, hsecond, hfinish]
  · -- the mark is read as the value, and the second pass has nothing left to write
    have hheld : (text.pushChunk t).1.held = [] := by
      rw [hstate]
      rfl
    rw [hheld, append_nil] at hsecond
    rw [pushChunk_append, hsecond, hstate, finish, Awaits.separated.value redacted_value]
    exact append_nil _

end Unica.Redaction
