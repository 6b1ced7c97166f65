import Unica.Lib.Escaped
import Unica.Redaction.Secrecy

/-!
# Column widths of a spreadsheet template

`mxl_decompile_compress_widths` writes the columns of one width as single columns and ranges,
`parse_mxl_column_spec` reads such a key back.
-/

namespace Unica.Templates

open List Lib Redaction Except

/-- A `BTreeMap` from columns to widths, its entries in order. Columns are non-negative `i64`. -/
structure ColumnWidths where
  entries : List (Int × Int)
  sorted : entries.Pairwise (·.1 < ·.1)
  column : ∀ entry ∈ entries, 0 ≤ entry.1 ∧ entry.1 < 2 ^ 63

def toText (n : Int) : List Char :=
  if n < 0 then '-' :: Nat.toDigits 10 n.natAbs else Nat.toDigits 10 n.natAbs

def parseDigits (sign : Int) (digits : List Char) : Option Int :=
  let value := sign * Nat.ofDigitChars 10 digits 0
  if digits ≠ [] ∧ digits.all Char.isDigit ∧ -2 ^ 63 ≤ value ∧ value < 2 ^ 63 then some value
  else none

/-- `str::parse::<i64>`. -/
def parseI64 : List Char → Option Int
  | '-' :: digits => parseDigits (-1) digits
  | '+' :: digits => parseDigits 1 digits
  | digits => parseDigits 1 digits

def trim (text : List Char) : List Char :=
  ((text.dropWhile Redaction.isWhitespace).reverse.dropWhile Redaction.isWhitespace).reverse

/-- `first..=last`. -/
def columnRange (first last : Int) : List Int :=
  (range (last + 1 - first).toNat).map fun (i : Nat) => first + i

def parseMxlColumnSpec (spec : List Char) : Except (List Char) (List Int) := do
  let number (text : List Char) := match parseI64 text with
    | some n => Except.ok n
    | none => .error ("invalid column spec: ".toList ++ spec)
  let parts ← (spec.splitOn ',').mapM fun part =>
    match splitOnce ['-'] (trim part) with
    | some (first, last) => return columnRange (← number first) (← number last)
    | none => return [← number (trim part)]
  return parts.flatten

/-- One column goes to the group of its width, or opens one. -/
def group (col width : Int) : List (Int × List Int) → List (Int × List Int)
  | [] => [(width, [col])]
  | (existing, cols) :: rest =>
    if existing = width then (existing, cols ++ [col]) :: rest
    else (existing, cols) :: group col width rest

def rangeKey (start prev : Int) : List Char :=
  if start = prev then toText start else toText start ++ '-' :: toText prev

/-- The keys of sorted columns, with the range from `start` to `prev` still open. -/
def rangeKeys (start prev : Int) : List Int → List (List Char)
  | [] => [rangeKey start prev]
  | col :: rest =>
    if col = prev + 1 then rangeKeys start col rest
    else rangeKey start prev :: rangeKeys col col rest

def groupKeys (width : Int) (cols : List Int) : List (List Char × Int) :=
  match cols.mergeSort (· ≤ ·) with
  | [] => []
  | col :: rest => (rangeKeys col col rest).map (·, width)

def mxlDecompileCompressWidths (widths : ColumnWidths) : List (List Char × Int) :=
  (widths.entries.foldl (fun byWidth entry => group entry.1 entry.2 byWidth) []).flatMap
    fun g => groupKeys g.1 g.2

/-- Each column of each key, in turn, with the key's width. -/
def expandWidths : List (List Char × Int) → Except (List Char) (List (Int × Int))
  | [] => .ok []
  | (spec, width) :: rest => do
    let columns ← parseMxlColumnSpec spec
    return columns.map (·, width) ++ (← expandWidths rest)

def IsColumn (n : Int) : Prop := 0 ≤ n ∧ n < 2 ^ 63

section Keys

variable {n start prev : Int}

theorem toText_eq (h : IsColumn n) : toText n = Nat.toDigits 10 n.toNat := by
  obtain ⟨hlow, -⟩ := h
  have hnat : n.natAbs = n.toNat := by omega
  rw [toText, if_neg (by omega), hnat]

theorem digit_of_mem_toText (h : IsColumn n) {c : Char} (hc : c ∈ toText n) : c.isDigit = true := by
  rw [toText_eq h] at hc
  exact Nat.isDigit_of_mem_toDigits (by decide) (by decide) hc

theorem parseI64_toText (h : IsColumn n) : parseI64 (toText n) = some n := by
  have hall : (toText n).all Char.isDigit = true := all_eq_true.mpr fun _ => digit_of_mem_toText h
  have hne : toText n ≠ [] := by
    rw [toText_eq h]
    exact Nat.toDigits_ne_nil
  have hvalue : (Nat.ofDigitChars 10 (toText n) 0 : Int) = n := by
    rw [toText_eq h, Nat.ofDigitChars_ten_toDigits, Int.toNat_of_nonneg h.1]
  have hmin : -2 ^ 63 ≤ n := by
    have := h.1
    omega
  unfold parseI64
  split
  · next heq => exact absurd (digit_of_mem_toText h (heq ▸ mem_cons_self)) (by decide)
  · next heq => exact absurd (digit_of_mem_toText h (heq ▸ mem_cons_self)) (by decide)
  · rw [parseDigits, hvalue, Int.one_mul, if_pos ⟨hne, hall, hmin, h.2⟩]

/-- A text of digits and hyphens is one part. -/
theorem splitOn_trim_eq {key : List Char} (h : ∀ c ∈ key, c.isDigit = true ∨ c = '-') :
    key.splitOn ',' = [key] ∧ trim key = key := by
  have hspace (c : Char) (hc : c ∈ key) : ¬ isWhitespace c = true := by
    intro hspace
    have hkey := whitespace_not_key hspace
    rcases h c hc with hdigit | rfl
    · simp [secretKeyChar, Char.isAlphanum, hdigit] at hkey
    · exact absurd hkey (by decide)
  have hkeep (text : List Char) (ht : ∀ c ∈ text, c ∈ key) :
      text.dropWhile isWhitespace = text := by
    cases text with
    | nil => rfl
    | cons c rest => rw [dropWhile_cons_of_neg (hspace c (ht c mem_cons_self))]
  constructor
  · have hcomma : ∀ text ∈ [key], ',' ∉ text := by
      intro text ht hc
      rw [mem_singleton] at ht
      exact absurd (h _ (ht ▸ hc)) (by decide)
    have hsplit := splitOn_intercalate ',' hcomma (cons_ne_nil _ _)
    rwa [intercalate_singleton] at hsplit
  · rw [trim, hkeep key fun _ => id, hkeep key.reverse fun _ => mem_reverse.mp, reverse_reverse]

theorem columnRange_self (n : Int) : columnRange n n = [n] := by
  simp [columnRange]

theorem columnRange_succ (h : start ≤ prev) :
    columnRange start (prev + 1) = columnRange start prev ++ [prev + 1] := by
  have hlength : (prev + 1 + 1 - start).toNat = (prev + 1 - start).toNat + 1 := by omega
  have hlast : start + ((prev + 1 - start).toNat : Int) = prev + 1 := by omega
  rw [columnRange, hlength, range_succ, map_append, map_singleton, hlast, columnRange]

theorem parseMxlColumnSpec_rangeKey (hs : IsColumn start) (hp : IsColumn prev) :
    parseMxlColumnSpec (rangeKey start prev) = .ok (columnRange start prev) := by
  have hhyphen (n : Int) (h : IsColumn n) : '-' ∉ toText n := fun hc =>
    absurd (digit_of_mem_toText h hc) (by decide)
  have hkey : ∀ c ∈ rangeKey start prev, c.isDigit = true ∨ c = '-' := by
    intro c hc
    unfold rangeKey at hc
    split at hc
    · exact .inl (digit_of_mem_toText hs hc)
    · rcases mem_append.mp hc with hc | hc
      · exact .inl (digit_of_mem_toText hs hc)
      · exact (mem_cons.mp hc).symm.imp_left (digit_of_mem_toText hp)
  obtain ⟨hparts, htrim⟩ := splitOn_trim_eq hkey
  simp only [parseMxlColumnSpec, hparts, mapM_cons, htrim, mapM_nil]
  by_cases hsame : start = prev
  · subst hsame
    rw [rangeKey, if_pos rfl, splitOnce_eq_none (hhyphen start hs), parseI64_toText hs,
      columnRange_self]
    rfl
  · rw [rangeKey, if_neg hsame, splitOnce_first (hhyphen start hs)]
    simp only [parseI64_toText hs, parseI64_toText hp]
    exact congrArg ok (append_nil _)

end Keys

/-- The keys are read as these columns and widths, whatever follows them. -/
def Lists (keys : List (List Char × Int)) (listed : List (Int × Int)) : Prop :=
  ∀ rest, expandWidths (keys ++ rest) = (listed ++ ·) <$> expandWidths rest

theorem Lists.nil : Lists [] [] := by
  intro rest
  show expandWidths rest = _
  cases expandWidths rest <;> rfl

theorem Lists.append {keys keys' : List (List Char × Int)} {listed listed' : List (Int × Int)}
    (h : Lists keys listed) (h' : Lists keys' listed') : Lists (keys ++ keys') (listed ++ listed') := by
  intro rest
  rw [append_assoc, h, h']
  cases expandWidths rest with
  | error e => rfl
  | ok more => exact congrArg ok (append_assoc _ _ _).symm

section Widths

variable (width : Int)

theorem lists_rangeKey {start prev : Int} (hs : IsColumn start) (hp : IsColumn prev) :
    Lists [(rangeKey start prev, width)] ((columnRange start prev).map (·, width)) := by
  intro rest
  rw [singleton_append, expandWidths, parseMxlColumnSpec_rangeKey hs hp]
  cases expandWidths rest <;> rfl

/-- The keys list the open range and the columns after it. -/
theorem lists_rangeKeys {cols : List Int} (hcols : ∀ col ∈ cols, IsColumn col) {start prev : Int}
    (hle : start ≤ prev) (hs : IsColumn start) (hp : IsColumn prev) :
    Lists ((rangeKeys start prev cols).map (·, width))
      ((columnRange start prev ++ cols).map (·, width)) := by
  induction cols generalizing start prev with
  | nil =>
    rw [append_nil]
    exact lists_rangeKey width hs hp
  | cons col cols ih =>
    obtain ⟨hcol, hcols⟩ := forall_mem_cons.mp hcols
    rw [rangeKeys]
    split
    · next hnext =>
      have hrest := ih hcols (by omega) hs hcol
      rwa [hnext, columnRange_succ hle, append_assoc, ← hnext] at hrest
    · have hrest := ih hcols (le_refl col) hcol hcol
      rw [columnRange_self] at hrest
      rw [map_append]
      exact (lists_rangeKey width hs hp).append hrest

theorem lists_groupKeys {cols : List Int} (hcols : ∀ col ∈ cols, IsColumn col) :
    ∃ listed, Lists (groupKeys width cols) listed ∧ listed ~ cols.map (·, width) := by
  have hperm := mergeSort_perm cols (· ≤ ·)
  have hsorted : ∀ col ∈ cols.mergeSort (· ≤ ·), IsColumn col := fun col h =>
    hcols col (hperm.mem_iff.mp h)
  unfold groupKeys
  generalize cols.mergeSort (· ≤ ·) = sorted at hperm hsorted
  refine ⟨sorted.map (·, width), ?_, hperm.map _⟩
  cases sorted with
  | nil => exact .nil
  | cons col rest =>
    obtain ⟨hcol, hrest⟩ := forall_mem_cons.mp hsorted
    have hlists := lists_rangeKeys width hrest (le_refl col) hcol hcol
    rwa [columnRange_self] at hlists

/-- The entries a grouping by width stands for. -/
def ungroup (groups : List (Int × List Int)) : List (Int × Int) :=
  groups.flatMap fun g => g.2.map (·, g.1)

theorem ungroup_group (col : Int) (groups : List (Int × List Int)) :
    ungroup (group col width groups) ~ (col, width) :: ungroup groups := by
  induction groups with
  | nil => rfl
  | cons g rest ih =>
    obtain ⟨existing, cols⟩ := g
    rw [group]
    split
    · next hsame =>
      subst hsame
      simp only [ungroup, flatMap_cons, map_append, append_assoc, map_singleton]
      exact perm_middle
    · exact (ih.append_left _).trans perm_middle

theorem ungroup_foldl (entries : List (Int × Int)) (groups : List (Int × List Int)) :
    ungroup (entries.foldl (fun byWidth entry => group entry.1 entry.2 byWidth) groups) ~
      entries ++ ungroup groups := by
  induction entries generalizing groups with
  | nil => rfl
  | cons entry rest ih =>
    have hgroup := (ungroup_group entry.2 entry.1 groups).append_left rest
    exact (ih _).trans (hgroup.trans perm_middle)

theorem lists_groups {groups : List (Int × List Int)}
    (h : ∀ entry ∈ ungroup groups, IsColumn entry.1) : ∃ listed,
      Lists (groups.flatMap fun g => groupKeys g.1 g.2) listed ∧ listed ~ ungroup groups := by
  induction groups with
  | nil => exact ⟨[], .nil, .nil⟩
  | cons g groups ih =>
    obtain ⟨hg, hgroups⟩ := forall_mem_append.mp h
    obtain ⟨first, hfirst, hperm⟩ := lists_groupKeys g.1 fun col hcol =>
      hg (col, g.1) (mem_map_of_mem hcol)
    obtain ⟨rest, hrest, hrestPerm⟩ := ih hgroups
    exact ⟨first ++ rest, hfirst.append hrest, hperm.append hrestPerm⟩

end Widths

/-- **Compressed widths lose nothing.** Every key is read back, and the columns read, each with
its key's width, are the entries of the map, none listed twice. -/
theorem expandWidths_compressed (widths : ColumnWidths) :
    ∃ listed, expandWidths (mxlDecompileCompressWidths widths) = .ok listed ∧
      listed ~ widths.entries ∧ (listed.map (·.1)).Nodup := by
  have hgroups := ungroup_foldl widths.entries []
  rw [show ungroup [] = [] from rfl, append_nil] at hgroups
  obtain ⟨listed, hlisted, hperm⟩ :=
    lists_groups fun entry h => widths.column entry (hgroups.mem_iff.mp h)
  have hread := hlisted []
  rw [append_nil, expandWidths] at hread
  have hentries : listed ~ widths.entries := hperm.trans hgroups
  refine ⟨listed, hread.trans (congrArg Except.ok (append_nil _)), hentries, ?_⟩
  exact (hentries.map _).nodup_iff.mpr (pairwise_map.mpr (widths.sorted.imp fun h => ne_of_lt h))

end Unica.Templates
