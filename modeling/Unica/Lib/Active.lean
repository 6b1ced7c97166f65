import Mathlib.Data.List.Infix

/-!
# What a matcher has to keep of its text

A text is read letter by letter and searched for patterns. It is enough to keep a suffix
that has every suffix of the text a pattern starts with: the next letter completes a
pattern in the text exactly when it does in what was kept.
-/

namespace Unica.Lib

open List

variable {α : Type} {patterns : List (List α)} {text kept kept' : List α} {c : α}

def Occurs (patterns : List (List α)) (text : List α) : Prop := ∃ w ∈ patterns, w <:+: text

structure Keeps (patterns : List (List α)) (text kept : List α) : Prop where
  suffix : kept <:+ text
  covers : ∀ w ∈ patterns, ∀ x, x <:+ text → x <+: w → x <:+ kept

theorem Occurs.mono (h : Occurs patterns kept) (hkept : kept <:+: text) : Occurs patterns text := by
  obtain ⟨w, hw, hinfix⟩ := h
  exact ⟨w, hw, hinfix.trans hkept⟩

namespace Keeps

theorem self : Keeps patterns text text := ⟨suffix_refl _, fun _ _ _ h _ => h⟩

theorem trans (h : Keeps patterns text kept) (h' : Keeps patterns kept kept') :
    Keeps patterns text kept' where
  suffix := h'.suffix.trans h.suffix
  covers := fun w hw x hx hpre => h'.covers w hw x (h.covers w hw x hx hpre) hpre

theorem snoc (h : Keeps patterns text kept) : Keeps patterns (text ++ [c]) (kept ++ [c]) where
  suffix := (suffix_append_inj_of_length_eq rfl).mpr ⟨h.suffix, rfl⟩
  covers := by
    intro w hw x hx hpre
    rcases suffix_concat_iff.mp hx with rfl | ⟨x', rfl, hx'⟩
    · exact nil_suffix
    · refine (suffix_append_inj_of_length_eq rfl).mpr ⟨?_, rfl⟩
      exact h.covers w hw x' hx' ((prefix_append x' [c]).trans hpre)

/-- The next letter completes a pattern in the text when it does in what was kept. -/
theorem occurs_snoc_iff (h : Keeps patterns text kept) (hnot : ¬Occurs patterns text) :
    Occurs patterns (text ++ [c]) ↔ Occurs patterns (kept ++ [c]) := by
  refine ⟨fun ⟨w, hw, hinfix⟩ => ?_, fun hoccurs => hoccurs.mono h.snoc.suffix.isInfix⟩
  rcases infix_concat_iff.mp hinfix with hsuffix | hbefore
  · exact ⟨w, hw, (h.snoc.covers w hw w hsuffix (prefix_refl w)).isInfix⟩
  · exact absurd ⟨w, hw, hbefore⟩ hnot

end Keeps

end Unica.Lib
