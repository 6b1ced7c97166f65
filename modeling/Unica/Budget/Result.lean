import Mathlib.Data.Nat.Log
import Unica.Address.Segment

/-!
# Results and the bytes they take

A `DomainResult` is delivered as JSON. A budget is compared with the length of that text, so that
of a value only its parts and its length matter here. An object keeps its entries in the order in
which they were first written.
-/

namespace Unica.Budget

open Address List

/-- A JSON value. Every value that is neither a natural number, a string nor an object is held as
its text. -/
inductive Value where
  | number (n : Nat)
  | string (s : Text)
  | other (json : Text)
  | object (entries : List (String × Value))

/-- The bytes of a character inside a JSON string. -/
def characterLength (c : Char) : Nat :=
  if c = '"' ∨ c = '\\' ∨ c ∈ ['\x08', '\t', '\n', '\x0c', '\r'] then 2
  else if c.toNat < 32 then 6
  else c.utf8Size

def stringLength (s : Text) : Nat := 2 + (s.map characterLength).sum

/-- One entry of an object with the comma or the brace behind it. -/
def entryLength (name : String) (length : Nat) : Nat := stringLength name.toList + length + 2

mutual

def Value.length : Value → Nat
  | .number n => Nat.log 10 n + 1
  | .string s => stringLength s
  | .other json => (json.map Char.utf8Size).sum
  | .object entries => 1 + max 1 (entriesLength entries)

def entriesLength : List (String × Value) → Nat
  | [] => 0
  | (name, value) :: rest => entryLength name value.length + entriesLength rest

end

def listLength (values : List Value) : Nat := 1 + max 1 (values.map fun v => v.length + 1).sum

/-- A field that is left out where it has no value. -/
def fieldLength (name : String) : Option Nat → Nat
  | none => 0
  | some length => entryLength name length

def listFieldLength (name : String) (values : List Value) : Nat :=
  if values.isEmpty then 0 else entryLength name (listLength values)

/-- The coordinates of a source text and a bounded part of it. -/
structure SourceTextReadHint where
  fromLine : Nat
  toLine : Nat
  linePrefix : Option Text

def SourceTextReadHint.length (hint : SourceTextReadHint) : Nat :=
  1 + entryLength "fromLine" (Value.number hint.fromLine).length +
    entryLength "toLine" (Value.number hint.toLine).length +
    fieldLength "prefix" (hint.linePrefix.map stringLength)

structure DomainResult where
  ok : Bool
  at' : Option Text
  summary : Text
  data : Option Value
  changed : List Value
  warnings : List Value
  diagnostics : List Value
  artifacts : List Value
  next : List Value
  rev : Option Text
  cursor : Option Text
  page : Option Value
  sourceText : Option Text
  sourceTextReadHint : Option SourceTextReadHint

/-- The length of the answer as JSON. -/
def DomainResult.length (result : DomainResult) : Nat :=
  1 + entryLength "ok" (toString result.ok).length +
    fieldLength "at" (result.at'.map stringLength) +
    entryLength "summary" (stringLength result.summary) +
    fieldLength "data" (result.data.map Value.length) +
    listFieldLength "changed" result.changed + listFieldLength "warnings" result.warnings +
    listFieldLength "diagnostics" result.diagnostics +
    listFieldLength "artifacts" result.artifacts + listFieldLength "next" result.next +
    fieldLength "rev" (result.rev.map stringLength) +
    fieldLength "cursor" (result.cursor.map stringLength) +
    fieldLength "page" (result.page.map Value.length) +
    fieldLength "sourceText" (result.sourceText.map stringLength) +
    fieldLength "sourceTextReadHint" (result.sourceTextReadHint.map SourceTextReadHint.length)

/-! ## Entries -/

/-- A new entry goes to the end, a known one keeps its place. -/
def insertEntry (name : String) (value : Value) : List (String × Value) → List (String × Value)
  | [] => [(name, value)]
  | (known, old) :: rest =>
    if known = name then (known, value) :: rest else (known, old) :: insertEntry name value rest

/-- `get` on a value: the entry of an object. -/
def Value.get (name : String) : Value → Option Value
  | .object entries => entries.lookup name
  | _ => none

def Value.asU64 : Value → Option Nat
  | .number n => some n
  | _ => none

variable {name other : String} {value value' : Value} {entries : List (String × Value)}

theorem lookup_insertEntry_self : (insertEntry name value entries).lookup name = some value := by
  fun_induction insertEntry name value entries with
  | case1 => simp
  | case2 old rest => simp
  | case3 known old rest hne ih => rw [lookup_cons, beq_false_of_ne (Ne.symm hne), ih]

theorem lookup_insertEntry_ne (h : other ≠ name) :
    (insertEntry name value entries).lookup other = entries.lookup other := by
  fun_induction insertEntry name value entries with
  | case1 | case2 => simp [lookup_cons, beq_false_of_ne h]
  | case3 known old rest hne ih => simp [lookup_cons, ih]

theorem insertEntry_insertEntry :
    insertEntry name value (insertEntry name value' entries) = insertEntry name value entries := by
  fun_induction insertEntry name value' entries with
  | case1 | case2 => simp [insertEntry]
  | case3 known old rest hne ih => simp [insertEntry, hne, ih]

theorem insertEntry_length_mono (h : value.length ≤ value'.length) :
    entriesLength (insertEntry name value entries) ≤ entriesLength (insertEntry name value' entries) := by
  fun_induction insertEntry name value entries with
  | case1 =>
    simp only [insertEntry, entriesLength, entryLength]
    omega
  | case2 old rest =>
    simp only [insertEntry, if_true, entriesLength, entryLength]
    omega
  | case3 known old rest hne ih =>
    simp only [insertEntry, if_neg hne, entriesLength]
    omega

theorem listFieldLength_mono {first more : List Value} (h : first <+: more) :
    listFieldLength name first ≤ listFieldLength name more := by
  obtain ⟨rest, rfl⟩ := h
  cases first with
  | nil => simp [listFieldLength]
  | cons value first =>
    simp only [listFieldLength, listLength, entryLength, cons_append, isEmpty_cons,
      map_cons, map_append, sum_cons, sum_append, Bool.false_eq_true, if_false]
    omega

end Unica.Budget
