import Mathlib.Data.List.Basic

/-!
# Delimited text with an escape

A sequence is cut at the first occurrence of a pattern (`splitOnce`), or at every separator
that no escape precedes (`splitEscaped`), keeping each slice both as it is written and with
its escapes taken away. Escaping a part and joining the parts is the inverse of the cut, and
a cut goes on where the cut of a first half ended.
-/

namespace Unica.Lib

open List Option

variable {α : Type*} [DecidableEq α]

/-! ## The first occurrence -/

/-- The sequence before and after the first occurrence of the pattern. -/
def splitOnce (pattern : List α) : List α → Option (List α × List α)
  | [] => if pattern.isEmpty then some ([], []) else none
  | c :: rest =>
    if pattern.isPrefixOf (c :: rest) then some ([], (c :: rest).drop pattern.length)
    else (splitOnce pattern rest).map fun (before, after) => (c :: before, after)

section SplitOnce

variable {p c : α} {ps before after l : List α}

theorem splitOnce_append (h : p ∉ before) :
    splitOnce (p :: ps) (before ++ (p :: ps) ++ after) = some (before, after) := by
  induction before with
  | nil =>
    have hprefix : (p :: ps).isPrefixOf ((p :: ps) ++ after) = true :=
      isPrefixOf_iff_prefix.mpr (prefix_append _ _)
    have hdrop : ((p :: ps) ++ after).drop (p :: ps).length = after := drop_left
    rw [nil_append]
    rw [cons_append] at hprefix hdrop ⊢
    rw [splitOnce, if_pos hprefix, hdrop]
  | cons c rest ih =>
    rw [mem_cons, not_or] at h
    have hprefix : (p :: ps).isPrefixOf (c :: (rest ++ (p :: ps) ++ after)) ≠ true := by
      simp [isPrefixOf, h.1]
    rw [cons_append, cons_append, splitOnce, if_neg hprefix, ih h.2]
    rfl

theorem splitOnce_eq_none (h : p ∉ l) : splitOnce (p :: ps) l = none := by
  induction l with
  | nil => rfl
  | cons c rest ih =>
    rw [mem_cons, not_or] at h
    have hprefix : (p :: ps).isPrefixOf (c :: rest) ≠ true := by
      simp [isPrefixOf, h.1]
    rw [splitOnce, if_neg hprefix, ih h.2]
    rfl

/-- A cut at one letter is at its first occurrence. -/
theorem splitOnce_eq_some (h : splitOnce [p] l = some (before, after)) :
    l = before ++ p :: after ∧ p ∉ before := by
  induction l generalizing before with
  | nil => simp [splitOnce] at h
  | cons c rest ih =>
    by_cases hc : p = c
    · have hprefix : [p].isPrefixOf (c :: rest) = true := by
        simp [isPrefixOf, hc]
      rw [splitOnce, if_pos hprefix] at h
      obtain ⟨rfl, rfl⟩ := h
      simp [hc]
    · have hprefix : [p].isPrefixOf (c :: rest) ≠ true := by
        simp [isPrefixOf, hc]
      rw [splitOnce, if_neg hprefix, map_eq_some_iff] at h
      obtain ⟨⟨first, last⟩, hrest, heq⟩ := h
      obtain ⟨rfl, rfl⟩ := heq
      obtain ⟨hsplit, hfirst⟩ := ih hrest
      exact ⟨by rw [hsplit, cons_append], by simp [hc, hfirst]⟩

theorem splitOnce_first (h : p ∉ before) : splitOnce [p] (before ++ p :: after) = some (before, after) := by
  have happend : before ++ p :: after = before ++ [p] ++ after := by
    simp
  rw [happend, splitOnce_append h]

/-- The first occurrence divides a text in one way. -/
theorem splitOnce_unique {before' after' : List α} (h : p ∉ before) (h' : p ∉ before')
    (heq : before ++ p :: after = before' ++ p :: after') : before = before' ∧ after = after' := by
  have hsplit : splitOnce [p] (before ++ p :: after) = _ := splitOnce_first h
  rw [heq, splitOnce_first h', some.injEq, Prod.mk.injEq] at hsplit
  exact ⟨hsplit.1.symm, hsplit.2.symm⟩

end SplitOnce

/-! ## Separators and escapes -/

/-- A slice between two separators: as it is written, and with its escapes taken away. -/
structure Piece (α : Type*) where
  raw : List α
  text : List α
  deriving DecidableEq

/-- The loop over the letters with the slice and the part it has read so far. An escape is
followed by a separator, and the cut fails at any other. -/
def splitEscaped (sep esc : α) (slice current : List α) : List α → Option (List (Piece α))
  | [] => some [⟨slice, current⟩]
  | c :: rest =>
    if c = esc then
      match rest with
      | [] => none
      | d :: rest =>
        if d = sep then splitEscaped sep esc (slice ++ [c, d]) (current ++ [d]) rest else none
    else if c = sep then
      (splitEscaped sep esc [] [] rest).map (⟨slice, current⟩ :: ·)
    else splitEscaped sep esc (slice ++ [c]) (current ++ [c]) rest

/-- Every separator behind an escape. -/
def escaped (sep esc : α) (text : List α) : List α :=
  text.flatMap fun c => if c = sep then [esc, c] else [c]

/-- The part whose slice is the escaped text. -/
def Piece.of (sep esc : α) (text : List α) : Piece α := ⟨escaped sep esc text, text⟩

section SplitEscaped

variable {sep esc c : α} {slice current text l m : List α} {parts : List (Piece α)} {texts : List (List α)}

@[simp] theorem escaped_nil : escaped sep esc [] = [] := rfl

theorem escaped_cons :
    escaped sep esc (c :: text) = (if c = sep then [esc, c] else [c]) ++ escaped sep esc text :=
  rfl

theorem escaped_append : escaped sep esc (text ++ l) = escaped sep esc text ++ escaped sep esc l :=
  flatMap_append

theorem escaped_of_notMem (h : sep ∉ text) : escaped sep esc text = text := by
  induction text with
  | nil => rfl
  | cons c rest ih =>
    rw [mem_cons, not_or] at h
    rw [escaped_cons, if_neg (Ne.symm h.1), ih h.2, singleton_append]

theorem mem_escaped (hsep : c ≠ sep) (hesc : c ≠ esc) : c ∈ escaped sep esc text ↔ c ∈ text := by
  induction text with
  | nil => rfl
  | cons d rest ih =>
    rw [escaped_cons]
    by_cases hd : d = sep
    · subst hd
      simp [ih, hsep, hesc]
    · simp [hd, ih]

theorem splitEscaped_sep (hne : sep ≠ esc) : splitEscaped sep esc slice current (sep :: l) =
      (splitEscaped sep esc [] [] l).map (⟨slice, current⟩ :: ·) := by
  rw [splitEscaped.eq_def]
  simp [hne]

theorem splitEscaped_pair : splitEscaped sep esc slice current (esc :: sep :: l) =
      splitEscaped sep esc (slice ++ [esc, sep]) (current ++ [sep]) l := by
  rw [splitEscaped.eq_def]
  simp

theorem splitEscaped_letter (hsep : c ≠ sep) (hesc : c ≠ esc) :
    splitEscaped sep esc slice current (c :: l) =
      splitEscaped sep esc (slice ++ [c]) (current ++ [c]) l := by
  rw [splitEscaped.eq_def]
  simp [hsep, hesc]

/-- The cut reads an escaped text into the part it has open. -/
theorem splitEscaped_escaped (hne : sep ≠ esc) (h : esc ∉ text) :
    splitEscaped sep esc slice current (escaped sep esc text ++ l) =
      splitEscaped sep esc (slice ++ escaped sep esc text) (current ++ text) l := by
  induction text generalizing slice current with
  | nil => simp
  | cons c rest ih =>
    rw [mem_cons, not_or] at h
    rw [escaped_cons]
    by_cases hc : c = sep
    · subst hc
      rw [if_pos rfl]
      simp only [cons_append, nil_append]
      rw [splitEscaped_pair, ih h.2]
      simp
    · rw [if_neg hc]
      simp only [cons_append, nil_append]
      rw [splitEscaped_letter hc (Ne.symm h.1), ih h.2]
      simp

/-- Parts that hold no escape are read back from the joined text of their escaped forms. -/
theorem splitEscaped_intercalate (hne : sep ≠ esc) (hnil : texts ≠ []) (h : ∀ text ∈ texts, esc ∉ text) :
    splitEscaped sep esc [] [] (intercalate [sep] (texts.map (escaped sep esc))) =
      some (texts.map (Piece.of sep esc)) := by
  induction texts with
  | nil => exact absurd rfl hnil
  | cons first rest ih =>
    rw [forall_mem_cons] at h
    cases rest with
    | nil =>
      have hread : splitEscaped sep esc [] [] (escaped sep esc first ++ []) = _ :=
        splitEscaped_escaped hne h.1
      simpa [Piece.of, splitEscaped] using hread
    | cons second rest =>
      have hrest := ih (by simp) h.2
      rw [map_cons, map_cons, intercalate_cons_cons, ← map_cons,
        append_assoc, splitEscaped_escaped hne h.1, singleton_append,
        splitEscaped_sep hne, hrest]
      simp [Piece.of]

omit [DecidableEq α] in
/-- A joined text behind others is joined with them. -/
theorem intercalate_append_intercalate {before inner : List (List α)} (h : inner ≠ []) :
    intercalate [sep] (before ++ [intercalate [sep] inner]) =
      intercalate [sep] (before ++ inner) := by
  induction before with
  | nil => simp
  | cons first before ih =>
    rw [cons_append, cons_append, intercalate_cons_of_ne_nil (by simp),
      intercalate_cons_of_ne_nil (by simp [h]), ih]

omit [DecidableEq α] in
theorem mem_intercalate (h : text ∈ texts) (hc : c ∈ text) : c ∈ intercalate [sep] texts := by
  induction texts with
  | nil => cases h
  | cons first rest ih =>
    cases rest with
    | nil => simp_all
    | cons second rest =>
      rw [intercalate_cons_cons, mem_append, mem_append]
      rw [mem_cons] at h
      obtain rfl | h := h
      · exact .inl (.inl hc)
      · exact .inr (ih h)

omit [DecidableEq α] in
theorem mem_of_mem_intercalate (h : c ∈ intercalate [sep] texts)
    (hc : c ≠ sep) : ∃ text ∈ texts, c ∈ text := by
  induction texts with
  | nil => cases h
  | cons first rest ih =>
    cases rest with
    | nil => exact ⟨first, by simp, by simpa using h⟩
    | cons second rest =>
      rw [intercalate_cons_cons, mem_append, mem_append, mem_singleton] at h
      obtain (h | h) | h := h
      · exact ⟨first, by simp, h⟩
      · exact absurd h hc
      · obtain ⟨text, htext, hmem⟩ := ih h
        exact ⟨text, mem_cons_of_mem _ htext, hmem⟩

/-- The slices, joined by separators, are what was cut. -/
theorem intercalate_raw (h : splitEscaped sep esc slice current l = some parts) :
    parts ≠ [] ∧ intercalate [sep] (parts.map (·.raw)) = slice ++ l := by
  fun_induction splitEscaped sep esc slice current l generalizing parts with
  | case1 slice current =>
    cases h
    simp
  | case2 slice current => cases h
  | case3 slice current rest ih =>
    simpa using ih h
  | case4 slice current d rest hd => cases h
  | case5 slice current rest hne ih =>
    obtain ⟨tail, htail, rfl⟩ := map_eq_some_iff.mp h
    obtain ⟨hnil, hjoin⟩ := ih htail
    have hmap : tail.map (·.raw) ≠ [] := by
      simpa using hnil
    rw [map_cons, intercalate_cons_of_ne_nil hmap, hjoin]
    simp
  | case6 slice current c rest hesc hsep ih =>
    simpa using ih h

/-- What holds of the open part before and after each letter holds of every part. -/
theorem splitEscaped_forall {P : List α → List α → Prop}
    (hpair : ∀ slice current, P slice current → P (slice ++ [esc, sep]) (current ++ [sep]))
    (hletter : ∀ slice current c, c ∈ l → c ≠ sep → c ≠ esc → P slice current →
      P (slice ++ [c]) (current ++ [c])) (hnil : P [] []) (hopen : P slice current)
    (h : splitEscaped sep esc slice current l = some parts) : ∀ part ∈ parts, P part.raw part.text := by
  fun_induction splitEscaped sep esc slice current l generalizing parts with
  | case1 slice current =>
    cases h
    simpa using hopen
  | case2 slice current => cases h
  | case3 slice current rest ih =>
    refine ih (fun slice current c hc => hletter slice current c (by simp [hc]))
      (hpair slice current hopen) h
  | case4 slice current d rest hd => cases h
  | case5 slice current rest hne ih =>
    obtain ⟨tail, htail, rfl⟩ := map_eq_some_iff.mp h
    rw [forall_mem_cons]
    exact ⟨hopen, ih (fun slice current c hc => hletter slice current c (by simp [hc])) hnil htail⟩
  | case6 slice current c rest hesc hsep ih =>
    exact ih (fun slice current c hc => hletter slice current c (by simp [hc]))
      (hletter slice current c (by simp) hsep hesc hopen) h

/-- No part holds an escape once they are taken away. -/
theorem esc_notMem_text (hne : sep ≠ esc) (h : splitEscaped sep esc [] [] l = some parts) :
    ∀ part ∈ parts, esc ∉ part.text := by
  apply splitEscaped_forall (P := fun _ current => esc ∉ current) _ _ _ _ h
  · intro slice current hcurrent
    simp [hcurrent, Ne.symm hne]
  · intro slice current c _ _ hesc hcurrent
    simp [hcurrent, Ne.symm hesc]
  · simp
  · simp

/-- A slice without an escape is its own text, and holds no separator. -/
theorem raw_eq_text (h : splitEscaped sep esc [] [] l = some parts) :
    ∀ part ∈ parts, esc ∉ part.raw → part.raw = part.text ∧ sep ∉ part.raw := by
  apply splitEscaped_forall
    (P := fun slice current => esc ∉ slice → slice = current ∧ sep ∉ slice) _ _ _ _ h
  · intro slice current _ hesc
    simp at hesc
  · intro slice current c _ hsep hesc hopen hplain
    rw [mem_append, not_or] at hplain
    obtain ⟨hsame, hnone⟩ := hopen hplain.1
    rw [hsame] at hnone ⊢
    simp [hnone, Ne.symm hsep]
  · simp
  · simp

/-- Apart from the separator, the letters of a part were in the text that was cut. -/
theorem mem_of_mem_text (h : splitEscaped sep esc [] [] l = some parts) :
    ∀ part ∈ parts, ∀ c ∈ part.text, c ≠ sep → c ∈ l := by
  apply splitEscaped_forall (P := fun _ current => ∀ c ∈ current, c ≠ sep → c ∈ l) _ _ _ _ h
  · intro slice current hopen c hc hsep
    rw [mem_append] at hc
    obtain hc | hc := hc
    · exact hopen c hc hsep
    · exact absurd (mem_singleton.mp hc) hsep
  · intro slice current d hd _ _ hopen c hc hsep
    rw [mem_append] at hc
    obtain hc | hc := hc
    · exact hopen c hc hsep
    · exact mem_singleton.mp hc ▸ hd
  · simp
  · simp

/-- The first part begins with the part that was open. -/
theorem splitEscaped_first (h : splitEscaped sep esc slice current l = some parts) :
    ∃ raw text rest, parts = ⟨slice ++ raw, current ++ text⟩ :: rest := by
  fun_induction splitEscaped sep esc slice current l generalizing parts with
  | case1 slice current =>
    cases h
    exact ⟨[], [], [], by simp⟩
  | case2 slice current => cases h
  | case3 slice current rest ih =>
    obtain ⟨raw, text, others, heq⟩ := ih h
    exact ⟨[esc, sep] ++ raw, [sep] ++ text, others, by simp [heq]⟩
  | case4 slice current d rest hd => cases h
  | case5 slice current rest hne ih =>
    obtain ⟨tail, htail, rfl⟩ := map_eq_some_iff.mp h
    exact ⟨[], [], tail, by simp⟩
  | case6 slice current c rest hesc hsep ih =>
    obtain ⟨raw, text, others, heq⟩ := ih h
    exact ⟨[c] ++ raw, [c] ++ text, others, by simp [heq]⟩

/-- The cut of a longer text goes on in the last part of the shorter one. -/
theorem splitEscaped_append (h : splitEscaped sep esc slice current l = some parts) :
    ∃ init last, parts = init ++ [last] ∧ ∀ m, splitEscaped sep esc slice current (l ++ m) =
      (splitEscaped sep esc last.raw last.text m).map (init ++ ·) := by
  fun_induction splitEscaped sep esc slice current l generalizing parts with
  | case1 slice current =>
    cases h
    exact ⟨[], ⟨slice, current⟩, by simp, by simp⟩
  | case2 slice current => cases h
  | case3 slice current rest ih =>
    obtain ⟨init, last, hparts, hmore⟩ := ih h
    refine ⟨init, last, hparts, fun m => ?_⟩
    rw [cons_append, cons_append, splitEscaped_pair, hmore]
  | case4 slice current d rest hd => cases h
  | case5 slice current rest hne ih =>
    obtain ⟨tail, htail, rfl⟩ := map_eq_some_iff.mp h
    obtain ⟨init, last, rfl, hmore⟩ := ih htail
    refine ⟨⟨slice, current⟩ :: init, last, by simp, fun m => ?_⟩
    rw [cons_append, splitEscaped_sep hne, hmore, Option.map_map]
    rfl
  | case6 slice current c rest hesc hsep ih =>
    obtain ⟨init, last, hparts, hmore⟩ := ih h
    refine ⟨init, last, hparts, fun m => ?_⟩
    rw [cons_append, splitEscaped_letter hsep hesc, hmore]

theorem escaped_head (hne : sep ≠ esc) (h : escaped sep esc text = c :: l) : c ≠ sep := by
  cases text with
  | nil => simp at h
  | cons d rest =>
    rw [escaped_cons] at h
    split at h
    · rw [cons_append, cons.injEq] at h
      exact h.1 ▸ Ne.symm hne
    · rw [singleton_append, cons.injEq] at h
      exact h.1 ▸ ‹d ≠ sep›

/-- A stray escape fails the cut: the letter behind it is never a bare separator. -/
theorem splitEscaped_stray (hne : sep ≠ esc) :
    splitEscaped sep esc slice current (esc :: escaped sep esc text) = none := by
  rw [splitEscaped.eq_def]
  simp only [if_true]
  split
  · rfl
  · rename_i d rest heq
    exact if_neg (escaped_head hne heq)

/-- An escaped text that is cut at all held no escape, and stays in one part. -/
theorem splitEscaped_escaped_inv (hne : sep ≠ esc)
    (h : splitEscaped sep esc slice current (escaped sep esc text) = some parts) :
    esc ∉ text ∧ parts = [⟨slice ++ escaped sep esc text, current ++ text⟩] := by
  have hplain : esc ∉ text := by
    induction text generalizing slice current with
    | nil => simp
    | cons c rest ih =>
      rw [escaped_cons] at h
      by_cases hc : c = sep
      · rw [if_pos hc, hc, cons_append, cons_append, splitEscaped_pair] at h
        simp [hc, Ne.symm hne, ih h]
      · by_cases hesc : c = esc
        · rw [if_neg hc, hesc, singleton_append, splitEscaped_stray hne] at h
          cases h
        · rw [if_neg hc, singleton_append, splitEscaped_letter hc hesc] at h
          simp [Ne.symm hesc, ih h]
  have hread : splitEscaped sep esc slice current (escaped sep esc text ++ []) = _ :=
    splitEscaped_escaped hne hplain
  rw [append_nil] at hread
  rw [hread] at h
  exact ⟨hplain, (some.inj h).symm⟩

end SplitEscaped

end Unica.Lib
