import Unica.Address.Parse

/-!
# The grammar of an address

`Reads` lists the ways the loop over the parts takes a segment. The readings are closed under
cutting off the last segments, every reading has a canonical one whose parts are the printed
segments, and a part that is appended behind a nameless branch becomes its name.
-/

namespace Unica.Address

open Lib AddressSegment List.Subset List NodeKind Piece

/-- The kinds whose segment may carry a name, `Can` and `Props` apart. -/
structure Bearing (kind : NodeKind) : Prop where
  notCan : kind ≠ .can
  notProps : kind ≠ .props
  takesName : kind.takesName = true

/-- The segments a reading takes from the parts, behind the owners. -/
inductive Reads : List AddressSegment → List (Piece Char) → List AddressSegment → Prop
  | done {owners} : Reads owners [] []
  | operation {owners part rest segment} (hkind : NodeKind.parse part.text = .ok .can)
      (hoperation : operationSegment rest = .ok segment) : Reads owners (part :: rest) [segment]
  | property {owners part property} (hkind : NodeKind.parse part.text = .ok .props) :
      Reads owners [part, property] [⟨.props, some property.text⟩]
  | branch {owners part kind} (hkind : NodeKind.parse part.text = .ok kind)
      (hbearing : Bearing kind) : Reads owners [part] [⟨kind, none⟩]
  | named {owners part kind name rest segments} (hkind : NodeKind.parse part.text = .ok kind)
      (hbearing : Bearing kind) (hname : checkName kind owners name.text = .ok ())
      (hrest : Reads (owners ++ [⟨kind, some name.text⟩]) rest segments) :
      Reads owners (part :: name :: rest) (⟨kind, some name.text⟩ :: segments)
  | asked {owners part kind can next rest segment} (hkind : NodeKind.parse part.text = .ok kind)
      (hbearing : Bearing kind) (hcan : can.text = NodeKind.can.asStr.toList)
      (hnext : (NodeKind.parse next.text).isOk = false)
      (hoperation : operationSegment (next :: rest) = .ok segment) :
      Reads owners (part :: can :: next :: rest) [⟨kind, none⟩, segment]
  | nameless {owners part kind rest segments} (hkind : NodeKind.parse part.text = .ok kind)
      (htakes : kind.takesName = false) (hrest : Reads (owners ++ [⟨kind, none⟩]) rest segments) :
      Reads owners (part :: rest) (⟨kind, none⟩ :: segments)

/-! ## The loop follows the grammar -/

section Loop

variable {owners segments : List AddressSegment} {part name : Piece Char}
  {parts rest : List (Piece Char)} {kind : NodeKind} {segment : AddressSegment}

theorem operationSegment_inv (h : operationSegment rest = .ok segment) :
    intercalate ['.'] (rest.map (·.raw)) = [] ∧ segment = ⟨.can, none⟩ ∨
      intercalate ['.'] (rest.map (·.raw)) ≠ [] ∧
        xmlNcnameIsValid (intercalate ['.'] (rest.map (·.raw))) = true ∧
        segment = ⟨.can, some (intercalate ['.'] (rest.map (·.raw)))⟩ := by
  unfold operationSegment at h
  simp only [List.isEmpty_iff, Bool.and_eq_true, Bool.not_eq_true', isEmpty_eq_false_iff]
    at h
  split at h
  · cases h
  · rename_i hvalid
    by_cases hnil : intercalate ['.'] (rest.map (·.raw)) = []
    · rw [if_pos hnil] at h
      exact .inl ⟨hnil, (Except.ok.inj h).symm⟩
    · rw [if_neg hnil] at h
      rw [not_and, Bool.not_eq_false] at hvalid
      exact .inr ⟨hnil, hvalid hnil, (Except.ok.inj h).symm⟩

theorem operationSegment_kind (h : operationSegment rest = .ok segment) : segment.kind = .can := by
  obtain ⟨-, rfl⟩ | ⟨-, -, rfl⟩ := operationSegment_inv h <;> rfl

theorem Reads.head (h : Reads owners (part :: rest) segments) : ∃ kind, parse part.text = .ok kind := by
  cases h with
  | operation hkind | property hkind | branch hkind | named hkind | asked hkind | nameless hkind =>
    exact ⟨_, hkind⟩

theorem Reads.nil_inv (h : Reads owners [] segments) : segments = [] := by
  cases h
  rfl

theorem Reads.segments_ne_nil (h : Reads owners (part :: rest) segments) : segments ≠ [] := by
  cases h <;> simp

theorem asksDictionary_iff : asksDictionary parts = true ↔ ∃ can next rest,
    parts = can :: next :: rest ∧ can.text = NodeKind.can.asStr.toList ∧
      (parse next.text).isOk = false := by
  unfold asksDictionary
  split
  · rename_i can next rest
    simp only [Bool.and_eq_true, beq_iff_eq, Bool.not_eq_true', cons.injEq]
    constructor
    · intro h
      exact ⟨can, next, rest, ⟨rfl, rfl, rfl⟩, h.1, h.2⟩
    · rintro ⟨_, _, _, ⟨rfl, rfl, rfl⟩, hcan, hnext⟩
      exact ⟨hcan, hnext⟩
  · rename_i hshort
    constructor
    · intro h
      cases h
    · rintro ⟨can, next, rest, rfl, -⟩
      exact absurd rfl (hshort can next rest)

/-- A name with a reading behind it is no question. -/
theorem Reads.not_asks (h : Reads owners rest segments) : asksDictionary (name :: rest) = false := by
  rw [← Bool.not_eq_true, asksDictionary_iff]
  rintro ⟨can, next, others, heq, -, hnext⟩
  obtain ⟨-, rfl⟩ := cons.inj heq
  obtain ⟨kind, hkind⟩ := h.head
  rw [hkind] at hnext
  cases hnext

theorem Reads.checkNameless (h : Reads owners rest segments) : checkNameless kind rest = .ok () := by
  cases rest with
  | nil => rfl
  | cons written rest =>
    obtain ⟨next, hnext⟩ := h.head
    rw [checkNameless, hnext]
    simp [Except.isOk, Except.toBool]

theorem NodeKind.takesName_of_nameless (h : kind.takesName = false) : kind ≠ .can ∧ kind ≠ .props := by
  constructor
  · rintro rfl
    cases h
  · rintro rfl
    cases h

theorem parseSegments_can {segment : AddressSegment} (hkind : parse part.text = .ok .can)
    (h : operationSegment rest = .ok segment) :
    parseSegments owners (part :: rest) = .ok (owners ++ [segment]) := by
  rw [parseSegments.eq_def]
  simp [hkind, h, Except.map]

theorem Reads.can_inv (h : Reads owners (part :: rest) segments) (hcan : parse part.text = .ok .can) :
    ∃ segment, operationSegment rest = .ok segment ∧ segments = [segment] := by
  cases h with
  | operation hkind hoperation => exact ⟨_, hoperation, rfl⟩
  | property hkind =>
    rw [hcan] at hkind
    cases hkind
  | branch hkind hbearing | named hkind hbearing | asked hkind hbearing =>
    rw [hcan] at hkind
    cases hkind
    exact absurd rfl hbearing.notCan
  | nameless hkind htakes hrest =>
    rw [hcan] at hkind
    cases hkind
    cases htakes

/-- The three ways to read a kind that carries names. -/
theorem Reads.bearing_inv (h : Reads owners (part :: rest) segments)
    (hpart : parse part.text = .ok kind) (hb : Bearing kind) :
    (rest = [] ∧ segments = [⟨kind, none⟩]) ∨
    (∃ name others following, rest = name :: others ∧
      segments = ⟨kind, some name.text⟩ :: following ∧
      Reads (owners ++ [⟨kind, some name.text⟩]) others following) ∨
    ∃ can next others segment, rest = can :: next :: others ∧
      (parse next.text).isOk = false ∧
      operationSegment (next :: others) = .ok segment ∧ segments = [⟨kind, none⟩, segment] := by
  cases h with
  | operation hkind hoperation =>
    rw [hpart] at hkind
    cases hkind
    exact absurd rfl hb.notCan
  | property hkind =>
    rw [hpart] at hkind
    cases hkind
    exact absurd rfl hb.notProps
  | branch hkind hbearing =>
    rw [hpart] at hkind
    cases hkind
    exact .inl ⟨rfl, rfl⟩
  | named hkind hbearing hname hrest =>
    rw [hpart] at hkind
    cases hkind
    exact .inr (.inl ⟨_, _, _, rfl, rfl, hrest⟩)
  | asked hkind hbearing hquestion hnext hoperation =>
    rw [hpart] at hkind
    cases hkind
    exact .inr (.inr ⟨_, _, _, _, rfl, hnext, hoperation, rfl⟩)
  | nameless hkind htakes hrest =>
    rw [hpart] at hkind
    cases hkind
    rw [hb.takesName] at htakes
    cases htakes

theorem Reads.nameless_inv (h : Reads owners (part :: rest) segments)
    (hpart : parse part.text = .ok kind) (hnone : kind.takesName = false) :
    ∃ following, segments = ⟨kind, none⟩ :: following ∧
      Reads (owners ++ [⟨kind, none⟩]) rest following := by
  have hbearing (hb : Bearing kind) : False := by
    rw [hb.takesName] at hnone
    cases hnone
  cases h with
  | operation hkind | property hkind =>
    rw [hpart] at hkind
    cases hkind
    cases hnone
  | branch hkind hb | named hkind hb | asked hkind hb =>
    rw [hpart] at hkind
    cases hkind
    exact (hbearing hb).elim
  | nameless hkind htakes hrest =>
    rw [hpart] at hkind
    cases hkind
    exact ⟨_, rfl, hrest⟩

/-- What the loop reads is a reading. -/
theorem reads_of_parseSegments {result : List AddressSegment}
    (h : parseSegments owners parts = .ok result) :
    ∃ segments, result = owners ++ segments ∧ Reads owners parts segments := by
  fun_induction parseSegments owners parts generalizing result with
  | case1 owners => exact ⟨[], by simp_all, .done⟩
  | case2 owners part rest e hkind => cases h
  | case3 owners part rest hkind =>
    obtain ⟨segment, hoperation, rfl⟩ := map_eq_ok.mp h
    exact ⟨[segment], rfl, .operation hkind hoperation⟩
  | case4 owners part rest hkind =>
    obtain ⟨segment, hproperty, rfl⟩ := map_eq_ok.mp h
    unfold propertySegment at hproperty
    split at hproperty
    · rename_i property
      cases hproperty
      exact ⟨_, rfl, .property hkind⟩
    · cases hproperty
  | case5 owners part kind hkind hcan hprops htakes =>
    cases h
    rw [Bool.and_eq_true] at htakes
    exact ⟨_, rfl, .branch hkind ⟨hcan, hprops, htakes.1⟩⟩
  | case6 owners part kind hkind hcan hprops name rest e hname htakes => cases h
  | case7 owners part kind hkind hcan hprops name rest u hname htakes ih =>
    obtain ⟨segments, rfl, hrest⟩ := ih h
    rw [Bool.and_eq_true] at htakes
    exact ⟨_, by simp, .named hkind ⟨hcan, hprops, htakes.1⟩ hname hrest⟩
  | case8 owners part rest kind hkind hcan hprops htakes e hnameless => cases h
  | case9 owners part rest kind hkind hcan hprops htakes u hnameless ih =>
    obtain ⟨segments, rfl, hrest⟩ := ih h
    by_cases hbears : kind.takesName = true
    · -- Only a question keeps such a kind from taking the next part.
      rw [hbears, Bool.true_and, Bool.not_eq_true', Bool.not_eq_false] at htakes
      obtain ⟨can, next, others, rfl, hquestion, hnext⟩ := asksDictionary_iff.mp htakes
      obtain ⟨segment, hoperation, rfl⟩ := hrest.can_inv (by rw [hquestion, parse_asStr])
      exact ⟨_, by simp, .asked hkind ⟨hcan, hprops, hbears⟩ hquestion hnext hoperation⟩
    · exact ⟨_, by simp, .nameless hkind (by simpa using hbears) hrest⟩

/-- A reading is what the loop reads. -/
theorem Reads.parseSegments (h : Reads owners parts segments) :
    parseSegments owners parts = .ok (owners ++ segments) := by
  induction h with
  | done => simp [Address.parseSegments]
  | operation hkind hoperation => exact parseSegments_can hkind hoperation
  | property hkind =>
    rw [Address.parseSegments.eq_def]
    simp [hkind, propertySegment, Except.map]
  | branch hkind hbearing =>
    rw [Address.parseSegments.eq_def]
    simp [hkind, hbearing.notCan, hbearing.notProps, hbearing.takesName, asksDictionary]
  | named hkind hbearing hname hrest ih =>
    rw [Address.parseSegments.eq_def]
    simp [hkind, hbearing.notCan, hbearing.notProps, hbearing.takesName, hrest.not_asks, hname, ih]
  | asked hkind hbearing hcan hnext hoperation =>
    rename_i owners part kind can next rest segment
    have hasks := asksDictionary_iff.mpr ⟨can, next, rest, rfl, hcan, hnext⟩
    have hquestion : parse can.text = .ok .can := by
      rw [hcan, parse_asStr]
    have hread : Reads (owners ++ [⟨kind, none⟩]) (can :: next :: rest) [segment] :=
      .operation hquestion hoperation
    rw [Address.parseSegments.eq_def]
    simp [hkind, hbearing.notCan, hbearing.notProps, hbearing.takesName, hasks,
      hread.checkNameless, parseSegments_can hquestion hoperation]
  | nameless hkind htakes hrest ih =>
    obtain ⟨hcan, hprops⟩ := takesName_of_nameless htakes
    rw [Address.parseSegments.eq_def]
    simp [hkind, hcan, hprops, htakes, hrest.checkNameless, ih]

end Loop

/-! ## Leading segments -/

/-- Fewer segments are read from fewer parts. -/
theorem Reads.take {owners parts segments} (h : Reads owners parts segments) (n : Nat) :
    ∃ fewer ⊆ parts, Reads owners fewer (segments.take n) := by
  induction h generalizing n with
  | done => exact ⟨[], by simp, by simpa using .done⟩
  | operation hkind hoperation =>
    cases n with
    | zero => exact ⟨[], by simp, .done⟩
    | succ n => exact ⟨_, refl _, by simpa using .operation hkind hoperation⟩
  | property hkind =>
    cases n with
    | zero => exact ⟨[], by simp, .done⟩
    | succ n => exact ⟨_, refl _, by simpa using .property hkind⟩
  | branch hkind hbearing =>
    cases n with
    | zero => exact ⟨[], by simp, .done⟩
    | succ n => exact ⟨_, refl _, by simpa using .branch hkind hbearing⟩
  | named hkind hbearing hname hrest ih =>
    cases n with
    | zero => exact ⟨[], by simp, .done⟩
    | succ n =>
      obtain ⟨fewer, hfewer, hread⟩ := ih n
      exact ⟨_, cons_subset_cons _ (cons_subset_cons _ hfewer),
        .named hkind hbearing hname hread⟩
  | asked hkind hbearing hquestion hnext hoperation =>
    match n with
    | 0 => exact ⟨[], by simp, .done⟩
    | 1 => exact ⟨_, by simp, .branch hkind hbearing⟩
    | n + 2 =>
      exact ⟨_, refl _, by
        simpa using .asked hkind hbearing hquestion hnext hoperation⟩
  | nameless hkind htakes hrest ih =>
    cases n with
    | zero => exact ⟨[], by simp, .done⟩
    | succ n =>
      obtain ⟨fewer, hfewer, hread⟩ := ih n
      exact ⟨_, cons_subset_cons _ hfewer, .nameless hkind htakes hread⟩

/-- `Can` ends the address. -/
theorem Reads.can_last {owners parts before after segment}
    (h : Reads owners parts (before ++ segment :: after)) (hcan : segment.kind = .can) : after = [] := by
  generalize hsegments : before ++ segment :: after = segments at h
  induction h generalizing before with
  | done => simp at hsegments
  | operation | property | branch =>
    cases before <;> simp_all
  | named hkind hbearing hname hrest ih =>
    cases before with
    | nil =>
      obtain ⟨rfl, -⟩ := cons.inj hsegments
      exact absurd hcan hbearing.notCan
    | cons first before => exact ih (cons.inj hsegments).2
  | asked hkind hbearing hquestion hnext hoperation =>
    match before, hsegments with
    | [], hsegments =>
      obtain ⟨rfl, -⟩ := cons.inj hsegments
      exact absurd hcan hbearing.notCan
    | [_], hsegments => simp_all
    | _ :: _ :: _, hsegments => simp_all
  | nameless hkind htakes hrest ih =>
    cases before with
    | nil =>
      obtain ⟨rfl, -⟩ := cons.inj hsegments
      exact absurd hcan (takesName_of_nameless htakes).1
    | cons first before => exact ih (cons.inj hsegments).2

/-! ## The canonical reading -/

/-- What the cut of a text into parts makes sure of. -/
structure Sound (part : Piece Char) : Prop where
  nonempty : part.text ≠ []
  unescaped : '\\' ∉ part.text
  plain : '\\' ∉ part.raw → part.raw = part.text ∧ '.' ∉ part.raw

theorem escaped_asStr (kind : NodeKind) : escaped '.' '\\' kind.asStr.toList = kind.asStr.toList := by
  apply escaped_of_notMem
  intro hmem
  have hletter := kind.latin_asStr '.' hmem
  cases hletter

theorem asStr_sound (kind : NodeKind) : kind.asStr.toList ≠ [] ∧ '\\' ∉ kind.asStr.toList := by
  constructor
  · exact kind.asStr_ne_nil
  · intro hmem
    have hletter := kind.latin_asStr '\\' hmem
    cases hletter

variable {rest : List (Piece Char)}

/-- The parts behind `Can` that make a valid name are written as they are read. -/
theorem operation_plain (hsound : ∀ part ∈ rest, Sound part)
    (hvalid : xmlNcnameIsValid (intercalate ['.'] (rest.map (·.raw))) = true) :
    rest = (rest.map (·.text)).map (of '.' '\\') := by
  have hplain : '\\' ∉ intercalate ['.'] (rest.map (·.raw)) :=
    xmlNcname_notMem hvalid (by decide)
  have hsame : ∀ part ∈ rest, part = of '.' '\\' part.text := by
    intro part hpart
    have hraw : '\\' ∉ part.raw := fun hmem =>
      hplain (mem_intercalate (mem_map_of_mem hpart) hmem)
    obtain ⟨heq, hdot⟩ := (hsound part hpart).plain hraw
    obtain ⟨raw, text⟩ := part
    cases heq
    rw [of, escaped_of_notMem hdot]
  rw [map_map]
  conv_lhs => rw [← map_id rest]
  exact map_congr_left hsame

/-- Texts that print the segments and are read back as them. -/
structure Canonical (owners segments : List AddressSegment) (texts : List Text) : Prop where
  sound : ∀ text ∈ texts, text ≠ [] ∧ '\\' ∉ text
  reads : Reads owners (texts.map (Piece.of '.' '\\')) segments
  renders : ∀ before, List.intercalate ['.'] (before ++ segments.flatMap rendered) =
    List.intercalate ['.'] (before ++ texts.map (escaped '.' '\\'))

section Canonical

variable {owners segments : List AddressSegment} {texts : List Text} {rest : List (Piece Char)}
  {kind : NodeKind} {segment : AddressSegment}

theorem Canonical.done : Canonical owners [] [] :=
  ⟨by simp, .done, by simp⟩

theorem Canonical.question : Canonical owners [⟨.can, none⟩] [NodeKind.can.asStr.toList] := by
  refine ⟨by simpa using asStr_sound .can, ?_, ?_⟩
  · exact .operation (parse_asStr .can) rfl
  · intro before
    simp [rendered, escaped_asStr]

/-- The name of an operation prints the parts it was read from. -/
theorem operation_renders (hrest : rest ≠ [])
    (hplain : rest = (rest.map (·.text)).map (of '.' '\\')) (before : List Text) :
    intercalate ['.'] (before ++
        [(⟨.can, some (intercalate ['.'] (rest.map (·.raw)))⟩ : AddressSegment)].flatMap
          rendered) =
      intercalate ['.'] (before ++
        (NodeKind.can.asStr.toList :: rest.map (·.text)).map (escaped '.' '\\')) := by
  have hraw : rest.map (·.raw) = (rest.map (·.text)).map (escaped '.' '\\') := by
    conv_lhs => rw [hplain]
    simp [of]
  have hjoin : intercalate ['.'] ((before ++ [NodeKind.can.asStr.toList]) ++
      [intercalate ['.'] (rest.map (·.raw))]) = _ :=
    intercalate_append_intercalate (by simpa using hrest)
  rw [map_cons, escaped_asStr, ← hraw]
  simpa [rendered] using hjoin

theorem Canonical.operation (hsound : ∀ part ∈ rest, Sound part)
    (h : operationSegment rest = .ok segment) : ∃ texts, Canonical owners [segment] texts := by
  obtain ⟨-, rfl⟩ | ⟨hne, hvalid, rfl⟩ := operationSegment_inv h
  · exact ⟨_, .question⟩
  · have hplain := operation_plain hsound hvalid
    have hrest : rest ≠ [] := by
      rintro rfl
      exact hne rfl
    refine ⟨NodeKind.can.asStr.toList :: rest.map (·.text), ?_, ?_, operation_renders hrest hplain⟩
    · rw [forall_mem_cons]
      refine ⟨asStr_sound .can, ?_⟩
      intro text htext
      obtain ⟨part, hpart, rfl⟩ := mem_map.mp htext
      exact ⟨(hsound part hpart).nonempty, (hsound part hpart).unescaped⟩
    · rw [map_cons, ← hplain]
      exact .operation (parse_asStr .can) h

/-- A nonempty list of sound parts is written with letters. -/
theorem Sound.join_ne_nil {next : Piece Char} (hnext : Sound next) :
    intercalate ['.'] ((next :: rest).map (·.raw)) ≠ [] := by
  intro hnil
  have hraw : next.raw ≠ [] := by
    intro hempty
    obtain ⟨heq, -⟩ := hnext.plain (by simp [hempty])
    exact hnext.nonempty (heq ▸ hempty)
  obtain ⟨c, others, hc⟩ := exists_cons_of_ne_nil hraw
  have hmem : c ∈ intercalate ['.'] ((next :: rest).map (·.raw)) :=
    mem_intercalate (mem_map_of_mem (mem_cons_self ..)) (by simp [hc])
  rw [hnil] at hmem
  cases hmem

namespace Canonical

theorem asked (hbearing : Bearing kind) {next : Piece Char} (hsound : ∀ part ∈ next :: rest, Sound part)
    (hnext : (parse next.text).isOk = false) (h : operationSegment (next :: rest) = .ok segment) :
    ∃ texts, Canonical owners [⟨kind, none⟩, segment] texts := by
  obtain ⟨hnil, -⟩ | ⟨hne, hvalid, rfl⟩ := operationSegment_inv h
  · exact absurd hnil (hsound next (mem_cons_self ..)).join_ne_nil
  · have hplain := operation_plain hsound hvalid
    refine ⟨kind.asStr.toList :: NodeKind.can.asStr.toList :: (next :: rest).map (·.text),
      ?_, ?_, ?_⟩
    · rw [forall_mem_cons, forall_mem_cons]
      refine ⟨asStr_sound kind, asStr_sound .can, ?_⟩
      intro text htext
      obtain ⟨part, hpart, rfl⟩ := mem_map.mp htext
      exact ⟨(hsound part hpart).nonempty, (hsound part hpart).unescaped⟩
    · rw [map_cons, map_cons, ← hplain]
      exact .asked (kind.parse_asStr) hbearing rfl hnext h
    · intro before
      have hrenders := operation_renders (by simp) hplain (before ++ [kind.asStr.toList])
      simpa [rendered, escaped_asStr] using hrenders

theorem property {name : Text} (hne : name ≠ []) (hplain : '\\' ∉ name) :
    Canonical owners [⟨.props, some name⟩] [props.asStr.toList, name] := by
  refine ⟨?_, ?_, ?_⟩
  · rw [forall_mem_cons, forall_mem_singleton]
    exact ⟨asStr_sound .props, hne, hplain⟩
  · exact .property (parse_asStr .props)
  · intro before
    simp [rendered, escaped_asStr, escapeName_eq]

theorem branch (hbearing : Bearing kind) : Canonical owners [⟨kind, none⟩] [kind.asStr.toList] := by
  refine ⟨by simpa using asStr_sound kind, .branch kind.parse_asStr hbearing, ?_⟩
  simp [rendered, escaped_asStr]

theorem named (hbearing : Bearing kind) {name : Text} (hne : name ≠ [])
    (hplain : '\\' ∉ name) (hname : checkName kind owners name = .ok ())
    (h : Canonical (owners ++ [⟨kind, some name⟩]) segments texts) :
    Canonical owners (⟨kind, some name⟩ :: segments) (kind.asStr.toList :: name :: texts) := by
  refine ⟨?_, .named kind.parse_asStr hbearing hname h.reads, ?_⟩
  · rw [forall_mem_cons, forall_mem_cons]
    exact ⟨asStr_sound kind, ⟨hne, hplain⟩, h.sound⟩
  · intro before
    have hrenders := h.renders (before ++ [kind.asStr.toList, escaped '.' '\\' name])
    simpa [rendered, escaped_asStr, escapeName_eq, hbearing.notCan] using hrenders

theorem nameless (htakes : kind.takesName = false)
    (h : Canonical (owners ++ [⟨kind, none⟩]) segments texts) :
    Canonical owners (⟨kind, none⟩ :: segments) (kind.asStr.toList :: texts) := by
  refine ⟨?_, .nameless kind.parse_asStr htakes h.reads, ?_⟩
  · rw [forall_mem_cons]
    exact ⟨asStr_sound kind, h.sound⟩
  · intro before
    have hrenders := h.renders (before ++ [kind.asStr.toList])
    simpa [rendered, escaped_asStr] using hrenders

end Canonical

/-- Every reading has a canonical one. -/
theorem Reads.canonical {parts} (h : Reads owners parts segments)
    (hsound : ∀ part ∈ parts, Sound part) : ∃ texts, Canonical owners segments texts := by
  induction h with
  | done => exact ⟨_, .done⟩
  | operation hkind hoperation =>
    rw [forall_mem_cons] at hsound
    exact Canonical.operation hsound.2 hoperation
  | property hkind =>
    rename_i property
    have hproperty : Sound property := hsound property (by simp)
    exact ⟨_, .property hproperty.nonempty hproperty.unescaped⟩
  | branch hkind hbearing => exact ⟨_, .branch hbearing⟩
  | named hkind hbearing hname hrest ih =>
    rw [forall_mem_cons, forall_mem_cons] at hsound
    obtain ⟨-, hsoundName, hsoundRest⟩ := hsound
    obtain ⟨texts, hcanonical⟩ := ih hsoundRest
    exact ⟨_, .named hbearing hsoundName.nonempty hsoundName.unescaped hname hcanonical⟩
  | asked hkind hbearing hquestion hnext hoperation =>
    rw [forall_mem_cons, forall_mem_cons] at hsound
    exact Canonical.asked hbearing hsound.2.2 hnext hoperation
  | nameless hkind htakes hrest ih =>
    rw [forall_mem_cons] at hsound
    obtain ⟨texts, hcanonical⟩ := ih hsound.2
    exact ⟨_, .nameless htakes hcanonical⟩

end Canonical

/-! ## One part more -/

/-- Behind a first segment that is not the last one, the last one is behind it. -/
theorem getLast?_cons_of_ne {first last : AddressSegment} {segments : List AddressSegment}
    (h : (first :: segments).getLast? = some last) (hne : first ≠ last) :
    segments ≠ [] ∧ segments.getLast? = some last := by
  cases segments with
  | nil =>
    cases h
    exact absurd rfl hne
  | cons second segments =>
    exact ⟨by simp, h⟩

/-- A part behind a nameless branch becomes its name, and nothing else changes. -/
theorem Reads.append_name {owners parts read kind name segments} (h : Reads owners parts read)
    (hlast : read.getLast? = some ⟨kind, none⟩) (hb : Bearing kind)
    (hmore : Reads owners (parts ++ [name]) segments) :
    segments = read.dropLast ++ [⟨kind, some name.text⟩] := by
  induction h generalizing segments with
  | done => cases hlast
  | operation _ hoperation | asked _ _ _ _ hoperation =>
    cases hlast
    exact absurd (operationSegment_kind hoperation) hb.notCan
  | property hkind => cases hlast
  | branch hkind hbearing =>
    cases hlast
    obtain ⟨hnil, -⟩ | ⟨written, others, following, heq, rfl, hrest⟩ |
      ⟨can, next, others, segment, heq, -⟩ := hmore.bearing_inv hkind hb
    · cases hnil
    · cases heq
      cases hrest
      rfl
    · cases heq
  | @named owners part bearer first rest following hkind hbearing hname hrest ih =>
    obtain ⟨hne, hlast⟩ := getLast?_cons_of_ne hlast (by simp)
    obtain ⟨hnil, -⟩ | ⟨written, others, following, heq, rfl, hfollowing⟩ |
      ⟨can, next, others, segment, heq, hnext, -⟩ := hmore.bearing_inv hkind hbearing
    · cases hnil
    · cases heq
      rw [ih hlast hfollowing, dropLast_cons_of_ne_nil hne, cons_append]
    · -- The part behind the name is a kind, so that the name was no question.
      cases rest with
      | nil =>
        cases hrest
        exact absurd rfl hne
      | cons second rest =>
        cases heq
        obtain ⟨nextKind, hnextKind⟩ := hrest.head
        rw [hnextKind] at hnext
        cases hnext
  | nameless hkind htakes hrest ih =>
    rename_i nameless _ _
    have hkinds : nameless ≠ kind := by
      rintro rfl
      rw [hb.takesName] at htakes
      cases htakes
    obtain ⟨hne, hlast⟩ := getLast?_cons_of_ne hlast (by simpa using hkinds)
    obtain ⟨following, rfl, hfollowing⟩ := hmore.nameless_inv hkind htakes
    rw [ih hlast hfollowing, dropLast_cons_of_ne_nil hne, cons_append]

theorem operationSegment_unmarked {part segment} (hpart : part ∈ rest)
    (hmark : '#' ∈ part.raw) : operationSegment rest ≠ .ok segment := by
  intro h
  have hmem : '#' ∈ intercalate ['.'] (rest.map (·.raw)) :=
    mem_intercalate (mem_map_of_mem hpart) hmark
  obtain ⟨hnil, -⟩ | ⟨-, hvalid, -⟩ := operationSegment_inv h
  · rw [hnil] at hmem
    cases hmem
  · exact xmlNcname_notMem hvalid (by decide) hmem

/-- A part that goes on behind a nameless branch is no kind, and nothing reads it. -/
theorem Reads.not_extended {owners parts read kind before last longer more segments}
    (h : Reads owners parts read) (hparts : parts = before ++ [last])
    (hlast : read.getLast? = some ⟨kind, none⟩) (hb : Bearing kind)
    (hkind : (parse longer.text).isOk = false) (hmark : '#' ∈ longer.raw) :
    ¬ Reads owners (before ++ longer :: more) segments := by
  have hnone {owners rest segments} (hread : Reads owners (longer :: rest) segments) : False := by
    obtain ⟨kind, hlonger⟩ := hread.head
    rw [hlonger] at hkind
    cases hkind
  induction h generalizing before segments with
  | done => cases hlast
  | operation _ hoperation | asked _ _ _ _ hoperation =>
    cases hlast
    exact absurd (operationSegment_kind hoperation) hb.notCan
  | property hkind => cases hlast
  | branch hkind hbearing =>
    intro hmore
    cases before with
    | nil => exact hnone hmore
    | cons first before => simp at hparts
  | named hkind hbearing hname hrest ih =>
    intro hmore
    obtain ⟨hne, hlast⟩ := getLast?_cons_of_ne hlast (by simp)
    match before, hparts with
    | [], hparts => simp at hparts
    | [_], hparts =>
      obtain ⟨rfl, rfl, rfl⟩ := hparts
      cases hrest
      exact hne rfl
    | first :: second :: before, hparts =>
      simp only [cons_append, cons.injEq] at hparts
      obtain ⟨rfl, rfl, hrestParts⟩ := hparts
      obtain ⟨hnil, -⟩ | ⟨written, others, following, heq, rfl, hfollowing⟩ |
        ⟨can, next, others, segment, heq, hnext, hoperation, -⟩ :=
          hmore.bearing_inv hkind hbearing
      · cases hnil
      · cases heq
        exact ih hrestParts hlast hfollowing
      · -- A name that asks now did not ask before: the part behind it was a kind.
        obtain ⟨-, hnextOthers⟩ := cons.inj heq
        cases before with
        | nil =>
          cases hnextOthers
          exact operationSegment_unmarked (by simp) hmark hoperation
        | cons third before =>
          cases hnextOthers
          rw [hrestParts] at hrest
          obtain ⟨nextKind, hnextKind⟩ := hrest.head
          rw [hnextKind] at hnext
          cases hnext
  | nameless hkind htakes hrest ih =>
    intro hmore
    rename_i nameless _ _
    have hkinds : nameless ≠ kind := by
      rintro rfl
      rw [hb.takesName] at htakes
      cases htakes
    obtain ⟨hne, hlast⟩ := getLast?_cons_of_ne hlast (by simpa using hkinds)
    cases before with
    | nil => exact hnone hmore
    | cons first before =>
      rw [cons_append, cons.injEq] at hparts
      obtain ⟨rfl, hrestParts⟩ := hparts
      obtain ⟨following, -, hfollowing⟩ := hmore.nameless_inv hkind htakes
      exact ih hrestParts hlast hfollowing

end Unica.Address
