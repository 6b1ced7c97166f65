import Mathlib.Tactic.FinCases

/-!
# Escaping of markup characters

`escape_xml`, `escape_xml_text` and `unescape_xml`, each a chain of replacements in the whole
text.
-/

namespace Unica.Xml

open List

/-- `str::replace` with a text: the occurrences from the left, none overlapping another. -/
def replaceAll (pattern replacement : List Char) : List Char → List Char
  | [] => []
  | c :: rest =>
    if pattern.isPrefixOf (c :: rest) then
      replacement ++ replaceAll pattern replacement (rest.drop (pattern.length - 1))
    else c :: replaceAll pattern replacement rest
termination_by text => text.length
decreasing_by all_goals grind

/-- `str::replace` with a character. -/
def replaceChar (pattern : Char) (replacement text : List Char) : List Char :=
  text.flatMap fun c => if c = pattern then replacement else [c]

def escapeXml (value : List Char) : List Char :=
  replaceChar '"' "&quot;".toList (replaceChar '>' "&gt;".toList
    (replaceChar '<' "&lt;".toList (replaceChar '&' "&amp;".toList value)))

def escapeXmlText (text : List Char) : List Char :=
  replaceChar '>' "&gt;".toList (replaceChar '<' "&lt;".toList
    (replaceChar '&' "&amp;".toList text))

def unescapeXml (value : List Char) : List Char :=
  replaceAll "&amp;".toList ['&'] (replaceAll "&lt;".toList ['<']
    (replaceAll "&gt;".toList ['>'] (replaceAll "&quot;".toList ['"'] value)))

/-- The markup characters, in the order in which they are escaped. -/
def markup : List Char := ['&', '<', '>', '"']

/-- What a markup character is escaped to. -/
def entity : Char → List Char
  | '&' => "&amp;".toList
  | '<' => "&lt;".toList
  | '>' => "&gt;".toList
  | '"' => "&quot;".toList
  | c => [c]

variable {r : List Char} {c d : Char}

theorem entity_eq (h : c ∈ markup) : ∃ name, entity c = '&' :: name ∧ '&' ∉ name := by
  fin_cases h <;> exact ⟨_, rfl, by decide⟩

/-- No entity begins inside a text without `&`. -/
theorem replaceAll_plain (hd : d ∈ markup) {plain : List Char} (h : '&' ∉ plain)
    (rest : List Char) : replaceAll (entity d) r (plain ++ rest) =
      plain ++ replaceAll (entity d) r rest := by
  induction plain with
  | nil => rfl
  | cons c plain ih =>
    rw [mem_cons, not_or] at h
    have hother : (entity d).isPrefixOf (c :: (plain ++ rest)) = false := by
      obtain ⟨name, hname, -⟩ := entity_eq hd
      simp [hname, isPrefixOf, h.1]
    rw [cons_append, replaceAll, hother, ih h.2]
    rfl

/-- An entity is replaced as a whole or left as a whole, whatever follows it. -/
theorem replaceAll_entity (hd : d ∈ markup) (hc : c ∈ markup) (rest : List Char) :
    replaceAll (entity d) [d] (entity c ++ rest) =
      (if c = d then [d] else entity c) ++ replaceAll (entity d) [d] rest := by
  obtain ⟨name, hname, hplain⟩ := entity_eq hc
  by_cases hsame : c = d
  · subst hsame
    rw [if_pos rfl, hname, cons_append, replaceAll, if_pos (by simp)]
    simp
  · have hother : (entity d).isPrefixOf (entity c ++ rest) = false := by
      fin_cases hd <;> fin_cases hc <;> first | rfl | exact absurd rfl hsame
    rw [if_neg hsame]
    rw [hname, cons_append] at hother ⊢
    rw [replaceAll, hother, replaceAll_plain hd hplain]
    rfl

/-- A character of a text in which those marked are escaped. -/
def token (marked : List Char) (c : Char) : List Char :=
  if c ∈ marked then entity c else [c]

/-- A text in which some characters are escaped, `&` among them, is read back: no replacement
leaves an `&` that a later one takes for its own. -/
theorem unescapeXml_tokens {marked : List Char} (hmarked : marked ⊆ markup) (hamp : '&' ∈ marked)
    (text : List Char) : unescapeXml (text.flatMap (token marked)) = text := by
  have hpass {c d : Char} (hd : d ∈ markup) (hc : c ≠ '&') (rest : List Char) :
      replaceAll (entity d) [d] (c :: rest) = c :: replaceAll (entity d) [d] rest := by
    have hplain : '&' ∉ [c] := by simpa using hc.symm
    exact replaceAll_plain hd hplain rest
  have hunescape (text : List Char) : unescapeXml text = replaceAll (entity '&') ['&']
      (replaceAll (entity '<') ['<'] (replaceAll (entity '>') ['>']
        (replaceAll (entity '"') ['"'] text))) := rfl
  induction text with
  | nil => simp [hunescape, replaceAll]
  | cons c rest ih =>
    rw [flatMap_cons, token]
    rw [hunescape] at ih ⊢
    by_cases hc : c ∈ marked
    · have hmem := hmarked hc
      rw [if_pos hc]
      fin_cases hmem <;> simp (disch := decide) only [replaceAll_entity, hpass, if_pos, if_neg,
        singleton_append, ih]
    · have hplain : c ≠ '&' := by
        rintro rfl
        exact hc hamp
      rw [if_neg hc, singleton_append]
      simp (disch := first | decide | exact hplain) only [hpass, ih]

theorem escapeXmlText_eq (text : List Char) :
    escapeXmlText text = text.flatMap (token ['&', '<', '>']) := by
  unfold escapeXmlText replaceChar
  rw [flatMap_assoc, flatMap_assoc]
  congr 1
  funext c
  by_cases hc : c ∈ ['&', '<', '>']
  · fin_cases hc <;> rfl
  · rw [token, if_neg hc]
    simp only [mem_cons, not_or] at hc
    rw [if_neg hc.1, flatMap_singleton, if_neg hc.2.1, flatMap_singleton, if_neg hc.2.2.1]

theorem escapeXml_eq (value : List Char) : escapeXml value = value.flatMap (token markup) := by
  have htext : escapeXml value = replaceChar '"' "&quot;".toList (escapeXmlText value) := rfl
  rw [htext, escapeXmlText_eq, replaceChar, flatMap_assoc]
  congr 1
  funext c
  by_cases hc : c ∈ markup
  · fin_cases hc <;> rfl
  · have htext : c ∉ ['&', '<', '>'] := fun hmem => hc (mem_append_left ['"'] hmem)
    have hquot : c ≠ '"' := by
      rintro rfl
      exact hc (by decide)
    rw [token, token, if_neg htext, if_neg hc, flatMap_singleton, if_neg hquot]

/-- **Escaping is undone**, whatever entities the text holds already. -/
theorem unescapeXml_escapeXml (s : List Char) :
    unescapeXml (escapeXml s) = s ∧ unescapeXml (escapeXmlText s) = s := by
  rw [escapeXml_eq, escapeXmlText_eq]
  exact ⟨unescapeXml_tokens (Subset.refl _) (by decide) s,
    unescapeXml_tokens (by decide) (by decide) s⟩

end Unica.Xml
