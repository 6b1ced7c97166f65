import Unica.Address.RoundTrip

/-!
# Addresses written without their source set

`QualifiedAddress::resolve_input` reads a text against the source sets a workspace has selected. A
colon ends a source set where no dot stands before it, or where the text before it is one of those
sets; otherwise it belongs to a free-text name. The colon of a name always comes behind the kind
that carries the name, and so behind a dot.
-/

namespace Unica.Address

open Lib QualifiedAddress List

namespace QualifiedAddress

/-- The text before the first colon is taken as a source set. -/
def isQualified (raw : Text) (available : List Text) : Bool :=
  match splitOnce [':'] raw with
  | none => false
  | some (before, _) => !before.contains '.' || available.contains before

def resolveInput (raw : Text) (available : List Text) : Except AddressError QualifiedAddress :=
  if isQualified raw available then parse raw
  else
    match available with
    | [sourceSet] => parse (sourceSet ++ ':' :: raw)
    | [] => .error ⟨.sourceSetRequired,
        "unqualified logical address requires one available source set"⟩
    | _ => .error ⟨.ambiguousAddress,
        "unqualified logical address is ambiguous across source sets"⟩

end QualifiedAddress

variable {address : QualifiedAddress}

theorem colon_notMem_asStr (kind : NodeKind) : ':' ∉ kind.asStr.toList := by
  intro hmem
  have hletter := kind.latin_asStr ':' hmem
  cases hletter

theorem colon_notMem_range (range : BodyLineRange) : ':' ∉ range.display := by
  have hdigits (n : Nat) : ':' ∉ Nat.toDigits 10 n := by
    intro hmem
    have hdigit := BodyLineRange.isDigit_toDigits hmem
    cases hdigit
  unfold BodyLineRange.display BodyLineRange.selector
  split <;> simp [hdigits]

/-- Before a letter that no first word holds, and that is not the separator, stands the separator. -/
theorem separator_before {word rest before after : Text} {separator letter : Char}
    (h : word ++ separator :: rest = before ++ letter :: after) (hword : letter ∉ word)
    (hne : separator ≠ letter) : separator ∈ before := by
  rw [append_eq_append_iff] at h
  obtain ⟨more, rfl, hmore⟩ | ⟨more, rfl, hmore⟩ := h
  · cases more with
    | nil =>
      rw [nil_append, cons.injEq] at hmore
      exact absurd hmore.1 hne
    | cons first more =>
      rw [cons_append, cons.injEq] at hmore
      simp [hmore.1]
  · cases more with
    | nil =>
      rw [nil_append, cons.injEq] at hmore
      exact absurd hmore.1.symm hne
    | cons first more =>
      rw [cons_append, cons.injEq] at hmore
      exact absurd (by simp [hmore.1]) hword

/-- The first colon of a logical path stands behind a dot. -/
theorem dot_before_colon {before after : Text} (hne : address.segments ≠ [])
    (h : splitOnce [':'] address.logicalPath = some (before, after)) : '.' ∈ before := by
  obtain ⟨hpath, hbefore⟩ := splitOnce_eq_some h
  obtain ⟨first, others, hsegments⟩ := exists_cons_of_ne_nil hne
  obtain ⟨lines, hlines, hrange⟩ : ∃ lines,
      address.logicalPath = renderSegments address.segments ++ lines ∧ ':' ∉ lines := by
    refine ⟨_, rfl, ?_⟩
    split
    · exact colon_notMem_range _
    · exact not_mem_nil
  obtain ⟨texts, hfirst⟩ : ∃ texts, first.rendered = first.kind.asStr.toList :: texts := ⟨_, rfl⟩
  rw [hlines, renderSegments, hsegments, flatMap_cons, hfirst, cons_append] at hpath
  generalize texts ++ others.flatMap AddressSegment.rendered = texts at hpath
  cases texts with
  | nil =>
    rw [intercalate_singleton] at hpath
    have hcolon : ':' ∈ before ++ ':' :: after := by simp
    rw [← hpath, mem_append] at hcolon
    exact (hcolon.elim (colon_notMem_asStr _) hrange).elim
  | cons text texts =>
    rw [intercalate_cons_cons, append_assoc, append_assoc] at hpath
    exact separator_before hpath (colon_notMem_asStr _) (by decide)

/-- **An address is resolved to itself.** Its full text is, against any source sets its own is one
of. Its logical path is, against its own source set, unless the text before the first colon of
the path is the name of that set. -/
theorem accepted_address_resolved (raw : Text) (address : QualifiedAddress)
    (h : parse raw = .ok address) :
    (∀ available, address.sourceSet ∈ available →
      resolveInput address.display available = .ok address) ∧
    ((∀ after, splitOnce [':'] address.logicalPath ≠ some (address.sourceSet, after)) →
      resolveInput address.logicalPath [address.sourceSet] = .ok address) := by
  have hread := parse_display h
  obtain ⟨hset, hne⟩ : xmlNcnameIsValid address.sourceSet = true ∧ address.segments ≠ [] := by
    obtain hwell | hselected := parse_inv h
    · exact ⟨hwell.sourceSet, hwell.nonempty⟩
    · have hbody := hselected.body
      rw [withoutLineRange_eq] at hbody
      exact ⟨hbody.sourceSet, hbody.nonempty⟩
  have hcolon : ':' ∉ address.sourceSet := xmlNcname_notMem hset (by decide)
  constructor
  · intro available hmem
    have hqualified : isQualified address.display available = true := by
      rw [isQualified, display, splitOnce_first hcolon]
      simp [hmem]
    unfold resolveInput
    rw [if_pos hqualified]
    exact hread
  · intro hother
    have hbare : isQualified address.logicalPath [address.sourceSet] = false := by
      unfold isQualified
      split
      · rfl
      · rename_i before after hsplit
        have hdot := dot_before_colon hne hsplit
        have hset : before ≠ address.sourceSet := fun heq => hother after (heq ▸ hsplit)
        simp [hdot, hset]
    rw [resolveInput, if_neg (by simp [hbare])]
    exact hread

/-- The body of a module with its lines. -/
theorem moduleLines_resolved : resolveInput moduleLines.display [['o'], ['m']] = .ok moduleLines ∧
      resolveInput moduleLines.logicalPath [['m']] = .ok moduleLines := by
  have hresolved := accepted_address_resolved _ _ moduleLines_parse
  refine ⟨hresolved.1 _ (by simp [moduleLines]), hresolved.2 fun after hsplit => ?_⟩
  cases hsplit

end Unica.Address
