import Unica.Address.Kind
import Unica.Lib.Escaped

/-!
# Segments and addresses

An address is a source set and a list of segments, each a kind with or without a name, and on
a module body possibly a range of lines. The printed form joins the kinds and the names by
dots and escapes the dots of a name, except behind `Can`, whose name is the rest of the
address.
-/

namespace Unica.Address

open Lib List

/-! ## XML names -/

def xmlNcnameStartRanges : List (Nat × Nat) :=
  [(0x41, 0x5A), (0x5F, 0x5F), (0x61, 0x7A), (0xC0, 0xD6), (0xD8, 0xF6), (0xF8, 0x2FF),
   (0x370, 0x37D), (0x37F, 0x1FFF), (0x200C, 0x200D), (0x2070, 0x218F), (0x2C00, 0x2FEF),
   (0x3001, 0xD7FF), (0xF900, 0xFDCF), (0xFDF0, 0xFFFD), (0x10000, 0xEFFFF)]

def xmlNcnameExtraRanges : List (Nat × Nat) :=
  [(0x2D, 0x2D), (0x2E, 0x2E), (0x30, 0x39), (0xB7, 0xB7), (0x300, 0x36F), (0x203F, 0x2040)]

def inXmlNameRanges (character : Char) (ranges : List (Nat × Nat)) : Bool :=
  ranges.any fun (lower, upper) => lower ≤ character.toNat && character.toNat ≤ upper

def xmlNcnameIsStart (character : Char) : Bool := inXmlNameRanges character xmlNcnameStartRanges

def xmlNcnameIsCharacter (character : Char) : Bool :=
  xmlNcnameIsStart character || inXmlNameRanges character xmlNcnameExtraRanges

def xmlNcnameIsValid : Text → Bool
  | [] => false
  | first :: rest => xmlNcnameIsStart first && rest.all xmlNcnameIsCharacter

theorem xmlNcname_character {name : Text} (h : xmlNcnameIsValid name = true) {c : Char}
    (hc : c ∈ name) : xmlNcnameIsCharacter c = true := by
  cases name with
  | nil => cases h
  | cons first rest =>
    rw [xmlNcnameIsValid, Bool.and_eq_true, all_eq_true] at h
    rw [mem_cons] at hc
    obtain rfl | hc := hc
    · rw [xmlNcnameIsCharacter, h.1, Bool.true_or]
    · exact h.2 c hc

theorem xmlNcname_notMem {name : Text} (h : xmlNcnameIsValid name = true) {c : Char}
    (hc : xmlNcnameIsCharacter c = false) : c ∉ name := by
  intro hmem
  rw [xmlNcname_character h hmem] at hc
  cases hc

/-! ## Segments -/

structure AddressSegment where
  kind : NodeKind
  name : Option Text
  deriving DecidableEq

/-- The segments before an item of a settings structure: behind the last `Setting`, which is
named, stand only named items. -/
def structureItemRoute (owners : List AddressSegment) : Bool :=
  let behind := (owners.reverse.takeWhile (fun owner => owner.kind != .setting)).reverse
  match (owners.reverse.dropWhile (fun owner => owner.kind != .setting)).head? with
  | none => false
  | some setting =>
    setting.name.isSome && behind.all fun owner => owner.kind == .item && owner.name.isSome

namespace NodeKind

/-- Whether a name of this kind may hold a dot in this place of an address. -/
def nameMayContainDot (kind : NodeKind) (owners : List AddressSegment) : Bool :=
  let first := owners.head?.map (·.kind)
  let previous := owners.getLast?.map (·.kind)
  let insideTemplate := first == some .commonTemplate ||
    owners.any fun owner => owner.kind == .template && owner.name.isSome
  match kind with
  | .field | .parameter | .area => insideTemplate
  | .calculatedField | .total => insideTemplate
  | .item => insideTemplate && structureItemRoute owners
  | .group => previous == some .interface
  | .type | .property => first == some .xdtoPackage
  | .right => first == some .role && owners.length == 1
  | _ => false

/-- Whether a name of this kind may be free text in this place of an address. -/
def nameIsFreeText (kind : NodeKind) (owners : List AddressSegment) : Bool :=
  kind == .item && kind.nameMayContainDot owners

end NodeKind

/-! ## Line ranges -/

/-- Inclusive lines of a file; a selector of one line keeps its spelling. -/
@[ext] structure BodyLineRange where
  fromLine : Nat
  toLine : Nat
  single : Bool
  positive : 0 < fromLine
  ascending : fromLine ≤ toLine
  fits : toLine < 2 ^ 64
  oneLine : single = true → fromLine = toLine

instance : DecidableEq BodyLineRange := fun _ _ => decidable_of_iff _ BodyLineRange.ext_iff.symm

namespace BodyLineRange

def bad : AddressError :=
  ⟨.invalidName,
    "Body line selector must be #L<n> or #L<a>-L<b>, with positive ascending file lines"⟩

/-- `str::strip_prefix` for one letter. -/
def stripLetter (letter : Char) : Text → Option Text
  | [] => none
  | c :: rest => if c = letter then some rest else none

/-- A positive number in decimal digits that a `usize` holds. -/
def number (s : Text) : Except AddressError { n : Nat // 0 < n ∧ n < 2 ^ 64 } :=
  if s.isEmpty || !s.all Char.isDigit then .error bad
  else
    let n := Nat.ofDigitChars 10 s 0
    if h : 0 < n ∧ n < 2 ^ 64 then .ok ⟨n, h⟩ else .error bad

def parse (raw : Text) : Except AddressError BodyLineRange :=
  match (stripLetter 'L' raw).bind (splitOnce ['-', 'L']) with
  | some (fromText, toText) => do
    let fromLine ← number fromText
    let toLine ← number toText
    if h : fromLine.val ≤ toLine.val then
      .ok ⟨fromLine.val, toLine.val, false, fromLine.2.1, h, toLine.2.2, by simp⟩
    else .error bad
  | none =>
    match stripLetter 'L' raw with
    | none => .error bad
    | some fromText => do
      let line ← number fromText
      .ok ⟨line.val, line.val, true, line.2.1, Nat.le_refl _, line.2.2, fun _ => rfl⟩

/-- What stands behind the `#` of the printed range. -/
def selector (range : BodyLineRange) : Text :=
  if range.single then 'L' :: Nat.toDigits 10 range.fromLine
  else 'L' :: Nat.toDigits 10 range.fromLine ++ '-' :: 'L' :: Nat.toDigits 10 range.toLine

def display (range : BodyLineRange) : Text := '#' :: range.selector

end BodyLineRange

/-! ## Addresses -/

structure QualifiedAddress where
  sourceSet : Text
  segments : List AddressSegment
  lineRange : Option BodyLineRange
  deriving DecidableEq

/-- The text of a name in an address: a literal dot is escaped. -/
def escapeName (name : Text) : Text :=
  if name.contains '.' then escaped '.' '\\' name else name

theorem escapeName_eq (name : Text) : escapeName name = escaped '.' '\\' name := by
  unfold escapeName
  split
  · rfl
  · rename_i h
    rw [escaped_of_notMem (by simpa using h)]

/-- The kind and, if there is one, the name, as they stand between the dots. -/
def AddressSegment.rendered (segment : AddressSegment) : List Text :=
  segment.kind.asStr.toList ::
    match segment.name with
    | none => []
    | some name => [if segment.kind = .can then name else escapeName name]

def renderSegments (segments : List AddressSegment) : Text :=
  List.intercalate ['.'] (segments.flatMap AddressSegment.rendered)

namespace QualifiedAddress

/-- The address of the first `len` segments: `prefix` of the source. -/
def firstSegments (address : QualifiedAddress) (len : Nat) : QualifiedAddress :=
  ⟨address.sourceSet, address.segments.take (min len address.segments.length), none⟩

def withoutLineRange (address : QualifiedAddress) : QualifiedAddress :=
  address.firstSegments address.segments.length

def logicalPath (address : QualifiedAddress) : Text :=
  renderSegments address.segments ++
    match address.lineRange with
    | some range => range.display
    | none => []

def display (address : QualifiedAddress) : Text :=
  address.sourceSet ++ ':' :: address.logicalPath

/-- The owner of a form's own description. -/
def formMetadataOwner (address : QualifiedAddress) : Option QualifiedAddress :=
  let valid : Bool :=
    match address.segments with
    | [form, metadata] =>
      form.kind == .commonForm && form.name.isSome && metadata.kind == .metadata &&
        metadata.name.isNone
    | [owner, form, metadata] =>
      owner.kind.isMetadataKind && owner.name.isSome && form.kind == .form &&
        form.name.isSome && metadata.kind == .metadata && metadata.name.isNone
    | _ => false
  if valid then some (address.firstSegments (address.segments.length - 1)) else none

/-- A question about one property: the node and the name of the property. -/
def propertyQuery (address : QualifiedAddress) : Option (QualifiedAddress × Text) :=
  match address.segments.getLast? with
  | none => none
  | some last =>
    let owner := address.segments.dropLast
    if last.kind ≠ .props ∨ owner = [] then none
    else last.name.map fun name => (⟨address.sourceSet, owner, none⟩, name)

/-- A question to the dictionary of operations: the node and, if there is one, the name of
the operation. -/
def operationQuery (address : QualifiedAddress) : Option (QualifiedAddress × Option Text) :=
  match address.segments.getLast? with
  | none => none
  | some last =>
    if last.kind ≠ .can then none
    else some (⟨address.sourceSet, address.segments.dropLast, none⟩, last.name)

end QualifiedAddress

/-! ## Ranges are read back -/

namespace BodyLineRange

theorem isDigit_toDigits {n : Nat} {c : Char} (h : c ∈ Nat.toDigits 10 n) : c.isDigit = true :=
  Nat.isDigit_of_mem_toDigits (by decide) (by decide) h

theorem number_toDigits {n : Nat} (h : 0 < n ∧ n < 2 ^ 64) : number (Nat.toDigits 10 n) = .ok ⟨n, h⟩ := by
  have hdigits : (Nat.toDigits 10 n).all Char.isDigit = true :=
    all_eq_true.mpr fun c hc => isDigit_toDigits hc
  have hne : (Nat.toDigits 10 n).isEmpty = false := by
    simp
  unfold number
  simp only [hdigits, hne, Bool.not_true, Bool.or_self, Bool.false_eq_true, if_false,
    Nat.ofDigitChars_ten_toDigits, dif_pos h]

theorem dash_notMem_toDigits (n : Nat) : '-' ∉ Nat.toDigits 10 n := by
  intro h
  have hdigit := isDigit_toDigits h
  cases hdigit

theorem parse_selector (range : BodyLineRange) : parse range.selector = .ok range := by
  obtain ⟨first, last, single, hpos, hasc, hfits, hone⟩ := range
  cases single with
  | true =>
    obtain rfl : first = last := hone rfl
    simp only [parse, selector, stripLetter, if_true, Option.bind_some,
      splitOnce_eq_none (dash_notMem_toDigits first), number_toDigits ⟨hpos, hfits⟩]
    rfl
  | false =>
    have hsplit : splitOnce ['-', 'L'] (Nat.toDigits 10 first ++ '-' :: 'L' :: Nat.toDigits 10 last)
        = some (Nat.toDigits 10 first, Nat.toDigits 10 last) := by
      have h : splitOnce ['-', 'L'] (Nat.toDigits 10 first ++ ['-', 'L'] ++ Nat.toDigits 10 last)
          = _ := splitOnce_append (dash_notMem_toDigits first)
      simpa using h
    simp only [parse, selector, stripLetter, Bool.false_eq_true, if_false, if_true,
      cons_append, Option.bind_some, hsplit,
      number_toDigits ⟨hpos, Nat.lt_of_le_of_lt hasc hfits⟩,
      number_toDigits ⟨Nat.lt_of_lt_of_le hpos hasc, hfits⟩]
    exact dif_pos hasc

end BodyLineRange

end Unica.Address
