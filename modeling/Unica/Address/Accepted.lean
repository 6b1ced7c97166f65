import Unica.Address.Grammar

/-!
# Accepted addresses

What the checks behind the loop make sure of, stated about the segments alone, and the
addresses that pass them. An accepted address is well formed, its leading segments are, and
the printed text of a well-formed address is read back as that address.
-/

namespace Unica.Address

open Lib List QualifiedAddress Piece Option

/-! ## The rules of the whole address -/

/-- The segments of a form's own description: a named form and a nameless `Metadata`. -/
def describesForm : List AddressSegment → Bool
  | [form, metadata] =>
    form.kind == .commonForm && form.name.isSome && metadata.kind == .metadata &&
      metadata.name.isNone
  | [owner, form, metadata] =>
    owner.kind.isMetadataKind && owner.name.isSome && form.kind == .form &&
      form.name.isSome && metadata.kind == .metadata && metadata.name.isNone
  | _ => false

/-- The segments in front of a question to a dictionary. -/
def subject (segments : List AddressSegment) : List AddressSegment :=
  if segments.getLast?.map (·.kind) = some .can then segments.dropLast else segments

/-- `Configuration` stands alone, or with the question to its dictionary. -/
def RootRule (segments : List AddressSegment) : Prop :=
  soleConfigurationRoot segments = true ∨ ∀ segment ∈ segments, segment.kind ≠ .configuration

/-- `Metadata` ends the description of a form. -/
def MetadataRule (segments : List AddressSegment) : Prop :=
  describesForm (subject segments) = true ∨ ∀ segment ∈ subject segments, segment.kind ≠ .metadata

theorem formMetadataOwner_eq {address : QualifiedAddress} :
    address.formMetadataOwner = if describesForm address.segments
      then some (address.firstSegments (address.segments.length - 1)) else none := by
  rfl

theorem metadataSubject_segments (address : QualifiedAddress) :
    (metadataSubject address).segments = subject address.segments := by
  unfold metadataSubject operationQuery subject
  cases hlast : address.segments.getLast? with
  | none => simp
  | some last =>
    by_cases hcan : last.kind = .can <;> simp [hcan]

theorem checkAddress_eq_ok {address result : QualifiedAddress} : checkAddress address = .ok result ↔
      RootRule address.segments ∧ MetadataRule address.segments ∧ address = result := by
  have hroot : ¬ (soleConfigurationRoot address.segments = false ∧
      address.segments.any (fun segment => segment.kind == .configuration) = true) ↔
      RootRule address.segments := by
    rw [RootRule, not_and_or, Bool.not_eq_true]
    simp
  have hmetadata : ¬ ((metadataSubject address).segments.any
        (fun segment => segment.kind == .metadata) = true ∧
      (metadataSubject address).formMetadataOwner = none) ↔ MetadataRule address.segments := by
    rw [MetadataRule, formMetadataOwner_eq, metadataSubject_segments, not_and_or, or_comm]
    simp
  unfold checkAddress
  rw [refuseIf_bind_eq_ok, refuseIf_bind_eq_ok, hroot, hmetadata, Except.ok.injEq]

/-! ## Leading segments keep the rules -/

variable {segments : List AddressSegment} {n : Nat}
variable {address : QualifiedAddress} {raw : Text}

theorem RootRule.take (h : RootRule segments) (hn : 0 < n) : RootRule (segments.take n) := by
  obtain hsole | hnone := h
  · left
    match segments, n, hsole with
    | [root], n + 1, hsole => simpa using hsole
    | [root, can], 1, hsole =>
      simp only [soleConfigurationRoot, Bool.and_eq_true] at hsole
      simp [soleConfigurationRoot, hsole.1]
    | [root, can], n + 2, hsole => simpa using hsole
  · exact .inr fun segment hsegment => hnone segment (mem_of_mem_take hsegment)

/-- Only the last segment of a form's description is `Metadata`. -/
theorem describesForm_dropLast (h : describesForm segments = true) :
    ∀ segment ∈ segments.dropLast, segment.kind ≠ .metadata := by
  unfold describesForm at h
  split at h
  · rename_i form metadata
    simp only [Bool.and_eq_true, beq_iff_eq] at h
    simp [h.1.1.1]
  · rename_i owner form metadata
    simp only [Bool.and_eq_true, beq_iff_eq] at h
    have howner : owner.kind ≠ .metadata := by
      intro hkind
      have hmetadata := h.1.1.1.1.1
      rw [hkind] at hmetadata
      cases hmetadata
    simp [howner, h.1.1.1.2]
  · cases h

theorem mem_dropLast_of_mem_take {segment : AddressSegment} (hn : n < segments.length)
    (h : segment ∈ segments.take n) : segment ∈ segments.dropLast := by
  have htake : segments.take n = segments.dropLast.take n := by
    rw [dropLast_eq_take, take_take, Nat.min_eq_left (by omega)]
  rw [htake] at h
  exact mem_of_mem_take h

/-- A question ends the address, so that fewer segments are their own subject. -/
theorem subject_take {owners parts} (h : Reads owners parts segments) (hn : n < segments.length) :
    subject (segments.take n) = segments.take n := by
  unfold subject
  split
  · rename_i hcan
    obtain ⟨last, hlast, hkind⟩ := map_eq_some_iff.mp hcan
    obtain ⟨before, hbefore⟩ := getLast?_eq_some_iff.mp hlast
    have hsplit : segments = before ++ last :: segments.drop n := by
      rw [← singleton_append, ← append_assoc, ← hbefore, take_append_drop]
    rw [hsplit] at h
    have hnil := h.can_last hkind
    rw [drop_eq_nil_iff] at hnil
    omega
  · rfl

/-- The leading segments are leading segments of the subject. -/
theorem take_subject (hn : n < segments.length) : segments.take n = (subject segments).take n := by
  unfold subject
  split
  · rw [dropLast_eq_take, take_take, Nat.min_eq_left (by omega)]
  · rfl

theorem MetadataRule.take {owners parts} (h : MetadataRule segments)
    (hreads : Reads owners parts segments) : MetadataRule (segments.take n) := by
  by_cases hn : n < segments.length
  · unfold MetadataRule
    rw [subject_take hreads hn, take_subject hn]
    obtain hform | hnone := h
    · by_cases hwhole : n < (subject segments).length
      · exact .inr fun segment hsegment =>
          describesForm_dropLast hform segment (mem_dropLast_of_mem_take hwhole hsegment)
      · rw [take_of_length_le (by omega)]
        exact .inl hform
    · exact .inr fun segment hsegment => hnone segment (mem_of_mem_take hsegment)
  · rw [take_of_length_le (by omega)]
    exact h

/-! ## Well-formed addresses -/

structure WellFormed (address : QualifiedAddress) : Prop where
  sourceSet : xmlNcnameIsValid address.sourceSet = true
  nonempty : address.segments ≠ []
  reads : ∃ parts, (∀ part ∈ parts, Sound part) ∧ Reads [] parts address.segments
  root : rootQuestion address.segments = address.segments
  rootRule : RootRule address.segments
  metadataRule : MetadataRule address.segments
  noLines : address.lineRange = none

theorem rootQuestion_of_ne_can (h : ∀ can, segments = [can] → can.kind ≠ .can) :
    rootQuestion segments = segments := by
  unfold rootQuestion
  split
  · rename_i can
    rw [if_neg (h can rfl)]
  · rfl

theorem rootQuestion_fixed {can : AddressSegment} (h : rootQuestion [can] = [can]) : can.kind ≠ .can := by
  intro hcan
  rw [rootQuestion, if_pos hcan] at h
  simp at h

theorem WellFormed.firstSegments (h : WellFormed address)
    (hn : 0 < n) : WellFormed (address.firstSegments n) := by
  obtain ⟨parts, hsound, hreads⟩ := h.reads
  have hsegments : (address.firstSegments n).segments = address.segments.take n := by
    rw [QualifiedAddress.firstSegments, take_eq_take_iff]
    omega
  constructor
  · exact h.sourceSet
  · rw [hsegments]
    simpa using ⟨Nat.pos_iff_ne_zero.mp hn, h.nonempty⟩
  · obtain ⟨fewer, hfewer, hread⟩ := hreads.take n
    rw [hsegments]
    exact ⟨fewer, fun part hpart => hsound part (hfewer hpart), hread⟩
  · rw [hsegments]
    apply rootQuestion_of_ne_can
    intro can hone hcan
    -- A first segment that is a question is the whole address.
    have hwhole : address.segments = [can] := by
      have hsplit := take_append_drop n address.segments
      rw [hone, singleton_append] at hsplit
      rw [← hsplit] at hreads ⊢
      have hfirst : Reads [] parts ([] ++ can :: address.segments.drop n) := hreads
      rw [hfirst.can_last hcan]
    have hroot := h.root
    rw [hwhole] at hroot
    exact rootQuestion_fixed hroot hcan
  · rw [hsegments]
    exact h.rootRule.take hn
  · rw [hsegments]
    exact h.metadataRule.take hreads
  · rfl

/-! ## Reading gives well-formed addresses -/

theorem asStr_part_sound (kind : NodeKind) : Sound (of '.' '\\' kind.asStr.toList) := by
  obtain ⟨hne, hplain⟩ := asStr_sound kind
  refine ⟨hne, hplain, fun _ => ?_⟩
  rw [of, escaped_asStr]
  refine ⟨rfl, fun hmem => ?_⟩
  have hletter := kind.latin_asStr '.' hmem
  cases hletter

/-- A question to a dictionary is read behind any owners. -/
theorem Reads.question {parts can} (h : Reads [] parts [can]) (hcan : can.kind = .can)
    (owners : List AddressSegment) : Reads owners parts [can] := by
  cases h with
  | operation hkind hoperation => exact .operation hkind hoperation
  | property hkind => cases hcan
  | branch _ hbearing | named _ hbearing => exact absurd hcan hbearing.notCan
  | nameless hkind htakes hrest => exact absurd hcan (NodeKind.takesName_of_nameless htakes).1

theorem reads_rootQuestion {parts} (h : Reads [] parts segments) (hsound : ∀ part ∈ parts, Sound part) :
    ∃ longer, (∀ part ∈ longer, Sound part) ∧ Reads [] longer (rootQuestion segments) := by
  by_cases hquestion : ∃ can, segments = [can] ∧ can.kind = .can
  · obtain ⟨can, rfl, hcan⟩ := hquestion
    refine ⟨of '.' '\\' NodeKind.configuration.asStr.toList :: parts, ?_, ?_⟩
    · rw [forall_mem_cons]
      exact ⟨asStr_part_sound .configuration, hsound⟩
    · rw [rootQuestion, if_pos hcan]
      exact .nameless (NodeKind.parse_asStr .configuration) rfl (h.question hcan _)
  · rw [rootQuestion_of_ne_can fun can hone hcan => hquestion ⟨can, hone, hcan⟩]
    exact ⟨parts, hsound, h⟩

theorem rootQuestion_idem (segments : List AddressSegment) :
    rootQuestion (rootQuestion segments) = rootQuestion segments := by
  apply rootQuestion_of_ne_can
  intro can hone hcan
  unfold rootQuestion at hone
  split at hone
  · split at hone
    · simp at hone
    · cases hone
      contradiction
  · rename_i hnone
    exact hnone can hone

theorem rootQuestion_ne_nil (h : segments ≠ []) : rootQuestion segments ≠ [] := by
  unfold rootQuestion
  split
  · split <;> simp
  · exact h

/-- The steps of a successful reading. -/
structure PathRead (raw : Text) (address : QualifiedAddress) where
  logicalPath : Text
  parts : List (Piece Char)
  segments : List AddressSegment
  text : raw = address.sourceSet ++ ':' :: logicalPath
  sourceSet : xmlNcnameIsValid address.sourceSet = true
  split : splitEscaped '.' '\\' [] [] logicalPath = some parts
  nonempty : ∀ part ∈ parts, part.text ≠ []
  reads : Reads [] parts segments
  rootSegments : address.segments = rootQuestion segments
  rootRule : RootRule address.segments
  metadataRule : MetadataRule address.segments
  noLines : address.lineRange = none

theorem parsePath_inv
    (h : QualifiedAddress.parsePath raw = .ok address) : Nonempty (PathRead raw address) := by
  unfold QualifiedAddress.parsePath at h
  split at h
  · cases h
  · rename_i sourceSet logicalPath hsplit
    simp only [bind_eq_ok, refuseIf_eq_ok, exists_const, splitSegments, okOr_eq_ok,
      checkAddress_eq_ok] at h
    obtain ⟨hset, -, parts, hparts, hne, segments, hread, hroot, hmetadata, rfl⟩ := h
    obtain ⟨segments, rfl, hreads⟩ := reads_of_parseSegments hread
    rw [not_or, Bool.not_eq_false] at hset
    obtain ⟨rfl, -⟩ := splitOnce_eq_some hsplit
    exact ⟨⟨logicalPath, parts, segments, rfl, hset.2, hparts,
      fun part hpart hempty => hne ⟨part, hpart, hempty⟩, hreads, rfl, hroot, hmetadata, rfl⟩⟩

theorem PathRead.parsePath (h : PathRead raw address) : QualifiedAddress.parsePath raw = .ok address := by
  have hcolon : ':' ∉ address.sourceSet := xmlNcname_notMem h.sourceSet (by decide)
  have hset : address.sourceSet ≠ [] := by
    intro hnil
    have hvalid := h.sourceSet
    rw [hnil] at hvalid
    cases hvalid
  have hpath : h.logicalPath ≠ [] := by
    intro hnil
    have hsplit := h.split
    rw [hnil, splitEscaped, some.injEq] at hsplit
    exact h.nonempty ⟨[], []⟩ (by simp [← hsplit]) rfl
  have haddress : (⟨address.sourceSet, rootQuestion h.segments, none⟩ : QualifiedAddress) =
      address := by
    rw [← h.rootSegments, ← h.noLines]
  unfold QualifiedAddress.parsePath
  rw [h.text, splitOnce_first hcolon]
  simp only [bind_eq_ok, refuseIf_eq_ok, exists_const, splitSegments, okOr_eq_ok,
    checkAddress_eq_ok]
  refine ⟨by simp [hset, h.sourceSet], hpath, h.parts, h.split, ?_, h.segments, ?_, ?_, ?_,
    haddress⟩
  · rintro ⟨part, hpart, hempty⟩
    exact h.nonempty part hpart hempty
  · rw [h.reads.parseSegments, nil_append]
  · exact h.rootSegments ▸ h.rootRule
  · exact h.rootSegments ▸ h.metadataRule

theorem PathRead.sound (h : PathRead raw address) : ∀ part ∈ h.parts, Sound part := fun part hpart =>
  ⟨h.nonempty part hpart, esc_notMem_text (by decide) h.split part hpart,
    raw_eq_text h.split part hpart⟩

theorem PathRead.wellFormed (h : PathRead raw address) : WellFormed address := by
  have hparts : h.parts ≠ [] := (intercalate_raw h.split).1
  obtain ⟨first, rest, hfirst⟩ := exists_cons_of_ne_nil hparts
  have hne : h.segments ≠ [] := by
    have hreads := h.reads
    rw [hfirst] at hreads
    exact hreads.segments_ne_nil
  constructor
  · exact h.sourceSet
  · rw [h.rootSegments]
    exact rootQuestion_ne_nil hne
  · rw [h.rootSegments]
    exact reads_rootQuestion h.reads h.sound
  · rw [h.rootSegments]
    exact rootQuestion_idem h.segments
  · exact h.rootRule
  · exact h.metadataRule
  · exact h.noLines

/-! ## A well-formed address is read back -/

theorem display_of_noLines (h : address.lineRange = none) :
    address.display = address.sourceSet ++ ':' :: renderSegments address.segments := by
  simp [display, logicalPath, h]

theorem WellFormed.pathRead (h : WellFormed address) : Nonempty (PathRead address.display address) := by
  obtain ⟨parts, hsound, hreads⟩ := h.reads
  obtain ⟨texts, htexts⟩ := hreads.canonical hsound
  have hne : texts ≠ [] := by
    rintro rfl
    exact h.nonempty htexts.reads.nil_inv
  have hrender : renderSegments address.segments =
      intercalate ['.'] (texts.map (escaped '.' '\\')) := htexts.renders []
  have hsplit : splitEscaped '.' '\\' [] [] (renderSegments address.segments) =
      some (texts.map (of '.' '\\')) := by
    rw [hrender]
    exact splitEscaped_intercalate (by decide) hne fun text htext => (htexts.sound text htext).2
  refine ⟨⟨renderSegments address.segments, texts.map (of '.' '\\'), address.segments,
    display_of_noLines h.noLines, h.sourceSet, hsplit, ?_, htexts.reads, h.root.symm, h.rootRule,
    h.metadataRule, h.noLines⟩⟩
  intro part hpart
  obtain ⟨text, htext, rfl⟩ := mem_map.mp hpart
  exact (htexts.sound text htext).1

theorem WellFormed.parsePath_display (h : WellFormed address) :
    QualifiedAddress.parsePath address.display = .ok address := by
  obtain ⟨read⟩ := h.pathRead
  exact read.parsePath

/-! ## A selector is no part of a path -/

theorem bearing_body : Bearing .body := ⟨by decide, by decide, rfl⟩

theorem endsInBody_iff : address.endsInBody = true ↔ address.segments.getLast? = some ⟨.body, none⟩ := by
  unfold endsInBody
  cases address.segments.getLast? with
  | none => simp
  | some segment =>
    obtain ⟨kind, name⟩ := segment
    simp

theorem getLast?_of_rootQuestion (h : (rootQuestion segments).getLast? = some ⟨.body, none⟩) :
    segments.getLast? = some ⟨.body, none⟩ := by
  unfold rootQuestion at h
  split at h
  · split at h
    · cases h
      contradiction
    · exact h
  · exact h

/-- What is appended to a text is appended to its path. -/
theorem PathRead.logicalPath_append {more : Text} {longer : QualifiedAddress}
    (h : PathRead raw address) (hmore : PathRead (raw ++ more) longer) :
    longer.sourceSet = address.sourceSet ∧ hmore.logicalPath = h.logicalPath ++ more := by
  have hsame : longer.sourceSet ++ ':' :: hmore.logicalPath =
      address.sourceSet ++ ':' :: (h.logicalPath ++ more) := by
    rw [← hmore.text]
    conv_lhs => rw [h.text]
    simp
  exact splitOnce_unique (xmlNcname_notMem hmore.sourceSet (by decide))
    (xmlNcname_notMem h.sourceSet (by decide)) hsame

theorem not_isOk_of_marked {token : Text} (h : '#' ∈ token) : (NodeKind.parse token).isOk = false := by
  cases hkind : NodeKind.parse token with
  | error e => rfl
  | ok kind => exact absurd h (NodeKind.parse_plain hkind)

/-- Behind a text that names a nameless `Body`, no `#` and nothing behind it is read. -/
theorem parsePath_marked {owner selector : Text} {body : QualifiedAddress}
    (h : QualifiedAddress.parsePath owner = .ok body) (hbody : body.endsInBody = true) :
    QualifiedAddress.parsePath (owner ++ '#' :: selector) ≠ .ok address := by
  intro hmarked
  obtain ⟨read⟩ := parsePath_inv h
  obtain ⟨marked⟩ := parsePath_inv hmarked
  obtain ⟨before, last, hparts, hgoes⟩ := splitEscaped_append read.split
  have hsplit := marked.split
  rw [(read.logicalPath_append marked).2, hgoes, splitEscaped_letter (by decide) (by decide)]
    at hsplit
  obtain ⟨more, hmore, hmarkedParts⟩ := map_eq_some_iff.mp hsplit
  obtain ⟨raw, text, rest, rfl⟩ := splitEscaped_first hmore
  have hlast : read.segments.getLast? = some ⟨.body, none⟩ := by
    apply getLast?_of_rootQuestion
    rw [← read.rootSegments]
    exact endsInBody_iff.mp hbody
  have hreads := marked.reads
  rw [← hmarkedParts] at hreads
  exact read.reads.not_extended hparts hlast bearing_body (not_isOk_of_marked (by simp))
    (by simp) hreads

end Unica.Address
