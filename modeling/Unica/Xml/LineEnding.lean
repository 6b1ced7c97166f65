import Mathlib.Data.List.Chain
import Mathlib.Data.List.Infix
import Mathlib.Data.Nat.Find

/-!
# Line ends of inserted text

What an update changes is written with the line end of the source. The changed part is
found byte by byte from both ends, so an LF of the update can count as unchanged.
-/

namespace Unica.Xml

open List

abbrev Bytes := List UInt8

def lf : UInt8 := 10

def cr : UInt8 := 13

/-- No byte inside a character. -/
def startsChar (b : UInt8) : Bool := b < 128 || 192 ≤ b

def isCharBoundary (text : Bytes) (index : Nat) : Bool :=
  index == 0 || index == text.length || text[index]?.any startsChar

def sourceLineEnding (text : Bytes) : Bytes :=
  match text.findIdx? (· == lf) with
  | some index => if 0 < index ∧ text[index - 1]? = some cr then [cr, lf] else [lf]
  | none => if text.contains cr then [cr] else [lf]

def replaceBareLf (lineEnding : Bytes) (previousWasCr : Bool) : Bytes → Bytes
  | [] => []
  | b :: rest =>
      (if b = lf ∧ previousWasCr = false then lineEnding else [b]) ++
        replaceBareLf lineEnding (b == cr) rest

def commonPrefixLen (left right : Bytes) : Nat :=
  ((left.zip right).takeWhile fun pair => pair.1 == pair.2).length

def commonSuffixLen (left right : Bytes) : Nat := commonPrefixLen left.reverse right.reverse

/-- `while n > 0 && !boundary(n) { n -= 1 }`. -/
def lowered (boundary : Nat → Bool) (n : Nat) : Nat := Nat.findGreatest (fun n => boundary n) n

def stringDiffBounds (before after : Bytes) : Nat × Nat × Nat :=
  let start := lowered (fun n => isCharBoundary before n && isCharBoundary after n)
    (commonPrefixLen before after)
  let maxSuffix := min before.length after.length - start
  let suffix := lowered (fun n => isCharBoundary before (before.length - n) &&
      isCharBoundary after (after.length - n))
    (min (commonSuffixLen (before.drop start) (after.drop start)) maxSuffix)
  (start, before.length - suffix, after.length - suffix)

def preserveInsertedLineEndings (source updated : Bytes) : Bytes :=
  let lineEnding := sourceLineEnding source
  if lineEnding = [lf] then updated
  else
    let bounds := stringDiffBounds source updated
    let changed := (updated.take bounds.2.2).drop bounds.1
    updated.take bounds.1 ++ replaceBareLf lineEnding false changed ++ updated.drop bounds.2.2

/-! ## Lines -/

/-- Every CR is before an LF, and every LF behind a CR unless `bare` ones may stand too. -/
def lineEnds (bare afterCr : Bool) : Bytes → Bool
  | [] => !afterCr
  | b :: rest => (if afterCr then b == lf else bare || b != lf) && lineEnds bare (b == cr) rest

/-- The text between line ends, which are CRLF or LF. -/
def lineBodies : Bytes → List Bytes
  | [] => [[]]
  | b :: rest =>
      if b = lf then [] :: lineBodies rest
      else if b = cr ∧ rest.head? = some lf then lineBodies rest
      else (lineBodies rest).modifyHead (b :: ·)

def endsCr (afterCr : Bool) (text : Bytes) : Bool := text.foldl (fun _ b => b == cr) afterCr

variable {bare afterCr : Bool} {a b text : Bytes} {e : Bytes}

theorem endsCr_append : endsCr afterCr (a ++ b) = endsCr (endsCr afterCr a) b := foldl_append

theorem lineEnds_behind (h : lineEnds bare afterCr (a ++ b) = true) :
    lineEnds bare (endsCr afterCr a) b = true := by
  induction a generalizing afterCr with
  | nil => exact h
  | cons x rest ih =>
    rw [cons_append, lineEnds, Bool.and_eq_true] at h
    exact ih h.2

theorem lineEnds_head (h : lineEnds false afterCr text = true) : text.head? = some lf ↔ afterCr = true := by
  cases text <;> cases afterCr <;> simp_all [lineEnds]

theorem replaceBareLf_append : replaceBareLf e afterCr (a ++ b) =
    replaceBareLf e afterCr a ++ replaceBareLf e (endsCr afterCr a) b := by
  induction a generalizing afterCr with
  | nil => rfl
  | cons x rest ih =>
    rw [cons_append, replaceBareLf, ih, replaceBareLf, append_assoc]
    rfl

/-- Nothing is replaced before the end of a text with CRLF only. -/
theorem replaceBareLf_uniform (h : lineEnds false afterCr (a ++ b) = true) :
    replaceBareLf e afterCr a = a := by
  induction a generalizing afterCr with
  | nil => rfl
  | cons x rest ih =>
    rw [cons_append, lineEnds, Bool.and_eq_true] at h
    rw [replaceBareLf, ih h.2, if_neg]
    · rfl
    · rintro ⟨rfl, rfl⟩
      exact absurd h.1 (by decide)

theorem lineEnds_replaceBareLf (h : lineEnds true afterCr text = true) :
    lineEnds false afterCr (replaceBareLf [cr, lf] afterCr text) = true := by
  induction text generalizing afterCr with
  | nil => exact h
  | cons x rest ih =>
    rw [lineEnds, Bool.and_eq_true] at h
    have hrest := ih h.2
    cases afterCr with
    | true =>
      simp only [replaceBareLf, lineEnds, Bool.true_eq_false, and_false, if_false, if_true,
        singleton_append, Bool.and_eq_true]
      exact ⟨h.1, hrest⟩
    | false =>
      by_cases hx : x = lf
      · subst hx
        exact hrest
      · simp [replaceBareLf, lineEnds, hx, hrest]

theorem replaceBareLf_head {g : Bool} (h : text.head? = some lf → afterCr = g) :
    replaceBareLf e afterCr text = replaceBareLf e g text := by
  cases text with
  | nil => rfl
  | cons x rest =>
    by_cases hx : x = lf
    · rw [h (congrArg some hx)]
    · simp [replaceBareLf, hx]

theorem endsCr_replaceBareLf {g : Bool} :
    endsCr afterCr (replaceBareLf [cr, lf] g text) = endsCr afterCr text := by
  induction text generalizing afterCr g with
  | nil => rfl
  | cons x rest ih =>
    rw [replaceBareLf, endsCr_append, ih]
    split
    · rename_i hx
      rw [hx.1]
      rfl
    · rfl

theorem head_replaceBareLf_true : (replaceBareLf e true text).head? = text.head? := by
  cases text with
  | nil => rfl
  | cons x rest => simp [replaceBareLf]

theorem lineBodies_replaceBareLf : lineBodies (replaceBareLf [cr, lf] afterCr text) = lineBodies text := by
  induction text generalizing afterCr with
  | nil => rfl
  | cons x rest ih =>
    by_cases hx : x = lf
    · subst hx
      cases afterCr <;> simp [replaceBareLf, lineBodies, ih, show cr ≠ lf by decide]
    · have hhead : x = cr → (replaceBareLf [cr, lf] (x == cr) rest).head? = rest.head? := by
        rintro rfl
        exact head_replaceBareLf_true
      simp only [replaceBareLf, lineBodies, hx, false_and, if_false, singleton_append, ih]
      by_cases hcr : x = cr
      · rw [hhead hcr]
      · simp [hcr]

/-- What stands before an LF. -/
theorem endsCr_take {n : Nat} (h : text[n]? = some lf) :
    endsCr false (text.take n) = true ↔ text[n - 1]? = some cr := by
  cases n with
  | zero => simp [h, endsCr, lf, cr]
  | succ n =>
    have hlt : n < text.length := by
      have := (List.getElem?_eq_some_iff.mp h).1
      omega
    rw [take_add_one, endsCr_append, Nat.add_sub_cancel, getElem?_eq_getElem hlt]
    simp [endsCr]

theorem sourceLineEnding_uniform (h : lineEnds false false text = true) (hlf : lf ∈ text) :
    sourceLineEnding text = [cr, lf] := by
  unfold sourceLineEnding
  rcases hfind : text.findIdx? (· == lf) with _ | index
  · exact absurd (findIdx?_eq_none_iff.mp hfind lf hlf) (by decide)
  · obtain ⟨hlt, hat, -⟩ := findIdx?_eq_some_iff_getElem.mp hfind
    have hindex : text[index]? = some lf := by
      rw [getElem?_eq_getElem hlt, eq_of_beq hat]
    rw [← take_append_drop index text] at h
    have hbefore := (lineEnds_head (lineEnds_behind h)).mp (head?_drop.trans hindex)
    have hpos : 0 < index := by
      by_contra hzero
      simp_all [endsCr]
    exact if_pos ⟨hpos, (endsCr_take hindex).mp hbefore⟩

/-! ## The changed part -/

section Bounds

variable {left right : Bytes} {n : Nat}

theorem lowered_le {boundary : Nat → Bool} {m : Nat} (h : lowered boundary m = n) : n ≤ m :=
  h ▸ Nat.findGreatest_le m

theorem commonPrefixLen_cons {x y : UInt8} : commonPrefixLen (x :: left) (y :: right) =
    if x = y then commonPrefixLen left right + 1 else 0 := by
  by_cases h : x = y <;> simp [commonPrefixLen, h]

theorem le_commonPrefixLen : n ≤ commonPrefixLen left right ↔
    n ≤ min left.length right.length ∧ left.take n = right.take n := by
  induction n generalizing left right with
  | zero => simp
  | succ n ih =>
    rcases left with _ | ⟨x, left⟩ <;> rcases right with _ | ⟨y, right⟩
    · simp [commonPrefixLen]
    · simp [commonPrefixLen]
    · simp [commonPrefixLen]
    · by_cases h : x = y <;> simp [commonPrefixLen_cons, h, ih]

theorem drop_commonSuffixLen (h : n ≤ commonSuffixLen left right) :
    left.drop (left.length - n) = right.drop (right.length - n) := by
  have htake := (le_commonPrefixLen.mp h).2
  rw [take_reverse, take_reverse] at htake
  exact reverse_injective htake

end Bounds

/-- The parts of the update are those of the source, up to where a character differs. -/
structure Cut (source updated : Bytes) (start stop : Nat) : Prop where
  order : start ≤ stop
  kept : source.take start = updated.take start
  tail : ∃ head, source = head ++ updated.drop stop
  maximal : ∀ x, source[start]? = some x → updated[start]? = some x →
    isCharBoundary source (start + 1) = true → isCharBoundary updated (start + 1) = false

theorem stringDiffBounds_cut (source updated : Bytes) : Cut source updated
    (stringDiffBounds source updated).1 (stringDiffBounds source updated).2.2 := by
  unfold stringDiffBounds
  generalize hstart : lowered _ (commonPrefixLen source updated) = start
  obtain ⟨hshort, hkept⟩ := le_commonPrefixLen.mp (lowered_le hstart)
  dsimp only
  generalize hsuffix : lowered _ (min _ _) = suffix
  obtain ⟨hcommon, hmax⟩ := Nat.le_min.mp (lowered_le hsuffix)
  have htail := drop_commonSuffixLen hcommon
  rw [drop_drop, drop_drop, length_drop, length_drop] at htail
  have hsource : start + (source.length - start - suffix) = source.length - suffix := by omega
  have hupdated : start + (updated.length - start - suffix) = updated.length - suffix := by omega
  rw [hsource, hupdated] at htail
  refine ⟨by omega, hkept, ⟨source.take (source.length - suffix), ?_⟩, fun x hx hx' hb => ?_⟩
  · rw [← htail, take_append_drop]
  · rw [Bool.eq_false_iff]
    intro hb'
    have hlonger : start + 1 ≤ commonPrefixLen source updated := by
      have hlt := (List.getElem?_eq_some_iff.mp hx).1
      have hlt' := (List.getElem?_eq_some_iff.mp hx').1
      refine le_commonPrefixLen.mpr ⟨by omega, ?_⟩
      rw [take_add_one, take_add_one, hkept, hx, hx']
    have hnext := Nat.le_findGreatest (P := fun n => (isCharBoundary source n &&
      isCharBoundary updated n) = true) hlonger (by simp [hb, hb'])
    rw [show Nat.findGreatest _ _ = start from hstart] at hnext
    omega

/-- A text. Of UTF-8 it is used that a byte below 128 is a whole character. -/
structure Text where
  bytes : Bytes
  ascii_whole : bytes.IsChain fun x y => x < 128 → startsChar y = true

theorem Text.boundary_behind_lf {text : Text} {n : Nat} (h : text.bytes[n]? = some lf) :
    isCharBoundary text.bytes (n + 1) = true := by
  obtain ⟨hlt, hat⟩ := List.getElem?_eq_some_iff.mp h
  by_cases hnext : n + 1 < text.bytes.length
  · have hchain := isChain_iff_getElem.mp text.ascii_whole n hnext (by rw [hat]; decide)
    simp [isCharBoundary, getElem?_eq_getElem hnext, hchain]
  · simp [isCharBoundary, show n + 1 = text.bytes.length by omega]

section Result

variable {source updated : Text} (hsource : lineEnds false false source.bytes = true)
include hsource

/-- The changed part does not begin with the LF of a CRLF, so it is replaced as in its place. -/
theorem Cut.replaced {start stop : Nat} (hcut : Cut source.bytes updated.bytes start stop) :
    updated.bytes.take start ++
        replaceBareLf [cr, lf] false ((updated.bytes.take stop).drop start) =
      replaceBareLf [cr, lf] false (updated.bytes.take stop) := by
  have hbefore : (updated.bytes.take stop).take start = updated.bytes.take start := by
    rw [take_take, Nat.min_eq_left hcut.order]
  rw [← take_append_drop start source.bytes, hcut.kept] at hsource
  have hfirst : ((updated.bytes.take stop).drop start).head? = some lf →
      false = endsCr false (updated.bytes.take start) := by
    intro hhead
    rw [head?_drop, getElem?_take] at hhead
    have hat : updated.bytes[start]? = some lf := by
      split at hhead
      · exact hhead
      · cases hhead
    rw [eq_comm, Bool.eq_false_iff]
    intro hends
    have hat' := head?_drop.symm.trans ((lineEnds_head (lineEnds_behind hsource)).mpr hends)
    have hno := hcut.maximal lf hat' hat (Text.boundary_behind_lf hat')
    rw [Text.boundary_behind_lf hat] at hno
    cases hno
  rw [replaceBareLf_head hfirst]
  conv_rhs => rw [← take_append_drop start (updated.bytes.take stop), hbefore,
    replaceBareLf_append, replaceBareLf_uniform hsource]

end Result

end Unica.Xml
