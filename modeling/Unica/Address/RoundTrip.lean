import Unica.Address.Accepted

/-!
# One spelling for an address

An address that is read from any text is read back from its printed form, and so are its
owners. A name that is appended to a branch by its text becomes the name of that branch,
whatever letters it holds.
-/

namespace Unica.Address

open Lib QualifiedAddress List Option Except

variable {address branch owner : QualifiedAddress} {raw name : Text} {kind : NodeKind}
  {segments before : List AddressSegment}

/-! ## Names without a mark -/

def Unmarked (segment : AddressSegment) : Prop := ∀ name, segment.name = some name → '#' ∉ name

theorem operationSegment_unmarked_name {rest : List (Piece Char)} {segment : AddressSegment}
    (h : operationSegment rest = .ok segment) : Unmarked segment := by
  intro name hname
  obtain ⟨-, rfl⟩ | ⟨-, hvalid, rfl⟩ := operationSegment_inv h
  · cases hname
  · cases hname
    exact xmlNcname_notMem hvalid (by decide)

theorem Reads.unmarked {owners parts segments} (h : Reads owners parts segments)
    (hparts : ∀ part ∈ parts, '#' ∉ part.text) : ∀ segment ∈ segments, Unmarked segment := by
  have hnone (kind : NodeKind) : Unmarked ⟨kind, none⟩ := by
    intro name hname
    cases hname
  have hsome (kind : NodeKind) {text : Text} (htext : '#' ∉ text) : Unmarked ⟨kind, some text⟩ := by
    intro name hname
    cases hname
    exact htext
  induction h with
  | done => simp
  | operation hkind hoperation =>
    rw [forall_mem_singleton]
    exact operationSegment_unmarked_name hoperation
  | property hkind =>
    rw [forall_mem_singleton]
    exact hsome _ (hparts _ (by simp))
  | branch hkind hbearing =>
    rw [forall_mem_singleton]
    exact hnone _
  | named hkind hbearing hname hrest ih =>
    rw [forall_mem_cons, forall_mem_cons] at hparts
    rw [forall_mem_cons]
    exact ⟨hsome _ hparts.2.1, ih hparts.2.2⟩
  | asked hkind hbearing hquestion hnext hoperation =>
    rw [forall_mem_cons, forall_mem_singleton]
    exact ⟨hnone _, operationSegment_unmarked_name hoperation⟩
  | nameless hkind htakes hrest ih =>
    rw [forall_mem_cons] at hparts ⊢
    exact ⟨hnone _, ih hparts.2⟩

theorem renderSegments_unmarked
    (h : ∀ segment ∈ segments, Unmarked segment) : '#' ∉ renderSegments segments := by
  intro hmem
  obtain ⟨text, htext, hmark⟩ := mem_of_mem_intercalate hmem (by decide)
  obtain ⟨segment, hsegment, hrendered⟩ := mem_flatMap.mp htext
  obtain ⟨kind, name⟩ := segment
  rw [AddressSegment.rendered, mem_cons] at hrendered
  obtain rfl | hname := hrendered
  · exact kind.plain_asStr hmark
  · cases name with
    | none => cases hname
    | some name =>
      have hplain : '#' ∉ name := h _ hsegment name rfl
      rw [mem_singleton] at hname
      rw [hname] at hmark
      split at hmark
      · exact hplain hmark
      · rw [escapeName_eq, mem_escaped (by decide) (by decide)] at hmark
        exact hplain hmark

theorem rootQuestion_unmarked (h : ∀ segment ∈ segments, Unmarked segment) :
    ∀ segment ∈ rootQuestion segments, Unmarked segment := by
  unfold rootQuestion
  split
  · split
    · rw [forall_mem_cons]
      refine ⟨?_, h⟩
      intro name hname
      cases hname
    · exact h
  · exact h

/-- A text without a mark is printed without one. -/
theorem PathRead.display_unmarked
    (h : PathRead raw address) (hraw : '#' ∉ raw) : '#' ∉ address.display := by
  have hpath : '#' ∉ h.logicalPath := by
    intro hmem
    rw [h.text] at hraw
    exact hraw (by simp [hmem])
  have hparts : ∀ part ∈ h.parts, '#' ∉ part.text := by
    intro part hpart hmem
    exact hpath (mem_of_mem_text h.split part hpart '#' hmem (by decide))
  have hsegments : ∀ segment ∈ address.segments, Unmarked segment := by
    rw [h.rootSegments]
    exact rootQuestion_unmarked (h.reads.unmarked hparts)
  rw [display_of_noLines h.noLines, mem_append, mem_cons, not_or, not_or]
  exact ⟨xmlNcname_notMem h.sourceSet (by decide), by decide, renderSegments_unmarked hsegments⟩

/-! ## Reading with a selector -/

/-- A selector of lines behind a well-formed module body. -/
structure Selected (address : QualifiedAddress) : Prop where
  body : WellFormed address.withoutLineRange
  endsInBody : address.withoutLineRange.endsInBody = true
  route : modulePrefixRoute address.segments ≠ none
  unmarked : '#' ∉ address.withoutLineRange.display
  lines : address.lineRange ≠ none

theorem withoutLineRange_eq (address : QualifiedAddress) :
    address.withoutLineRange = ⟨address.sourceSet, address.segments, none⟩ := by
  rw [withoutLineRange, firstSegments, Nat.min_self, take_length]

theorem parse_inv (h : parse raw = .ok address) : WellFormed address ∨ Selected address := by
  have hpath (hread : parsePath raw = .ok address) : WellFormed address := by
    obtain ⟨read⟩ := parsePath_inv hread
    exact read.wellFormed
  rw [parse, parseWith] at h
  split at h
  · exact .inl (hpath h)
  · rename_i owner selector hsplit
    split at h
    · exact .inl (hpath h)
    · rename_i body hbody
      split at h
      · rename_i hends
        right
        simp only [selectLines, bind_eq_ok, refuseIf_eq_ok, exists_const, ok.injEq] at h
        obtain ⟨-, hroute, range, -, rfl⟩ := h
        obtain ⟨read⟩ := parsePath_inv hbody
        have hwhole : (⟨body.sourceSet, body.segments, none⟩ : QualifiedAddress) = body := by
          rw [← read.noLines]
        have hsame : withoutLineRange { body with lineRange := some range } =
            body := by
          rw [withoutLineRange_eq]
          exact hwhole
        refine ⟨?_, ?_, hroute, ?_, by simp⟩
        · rw [hsame]
          exact read.wellFormed
        · rw [hsame]
          exact hends
        · rw [hsame]
          exact read.display_unmarked (splitOnce_eq_some hsplit).2
      · exact .inl (hpath h)

theorem WellFormed.parse_display (h : WellFormed address) : parse address.display = .ok address := by
  have hpath := h.parsePath_display
  rw [parse, parseWith]
  split
  · exact hpath
  · rename_i owner selector hsplit
    split
    · exact hpath
    · rename_i body hbody
      split
      · rename_i hends
        rw [(splitOnce_eq_some hsplit).1] at hpath
        exact absurd hpath (parsePath_marked hbody hends)
      · exact hpath

theorem Selected.parse_display (h : Selected address) : parse address.display = .ok address := by
  obtain ⟨range, hrange⟩ := ne_none_iff_exists'.mp h.lines
  have hdisplay : address.display = address.withoutLineRange.display ++ '#' :: range.selector := by
    have hnone : address.withoutLineRange.lineRange = none := rfl
    rw [withoutLineRange_eq]
    simp [display, logicalPath, hrange, BodyLineRange.display]
  have haddress : { address.withoutLineRange with lineRange := some range } = address := by
    rw [withoutLineRange_eq, ← hrange]
  have hroute : modulePrefixRoute address.withoutLineRange.segments ≠ none := by
    rw [withoutLineRange_eq]
    exact h.route
  rw [parse, parseWith, hdisplay, splitOnce_first h.unmarked]
  simp only [h.body.parsePath_display, h.endsInBody, if_true]
  simp only [selectLines, bind_eq_ok, refuseIf_eq_ok, exists_const, ok.injEq]
  exact ⟨by simp [h.body.noLines], hroute, range, range.parse_selector, haddress⟩

theorem parse_display (h : parse raw = .ok address) : parse address.display = .ok address := by
  obtain hwell | hselected := parse_inv h
  · exact hwell.parse_display
  · exact hselected.parse_display

/-! ## Owners -/

/-- The leading segments of an accepted address are well formed, with lines or without. -/
theorem firstSegments_wellFormed (h : parse raw = .ok address) {n : Nat} (hn : 0 < n) :
    WellFormed (address.firstSegments n) := by
  obtain hwell | hselected := parse_inv h
  · exact hwell.firstSegments hn
  · have hsame : address.firstSegments n = address.withoutLineRange.firstSegments n := by
      rw [withoutLineRange_eq]
      rfl
    rw [hsame]
    exact hselected.body.firstSegments hn

theorem owner_wellFormed (h : parse raw = .ok address) (hlength : 1 < address.segments.length)
    (howner : owner = ⟨address.sourceSet, address.segments.dropLast, none⟩) : WellFormed owner := by
  have hfirst := firstSegments_wellFormed (n := address.segments.length - 1) h (by omega)
  rwa [firstSegments, Nat.min_eq_left (Nat.sub_le _ _), ← dropLast_eq_take, ← howner] at hfirst

theorem operationQuery_inv {operation : Option Text}
    (h : address.operationQuery = some (owner, operation)) :
    owner = ⟨address.sourceSet, address.segments.dropLast, none⟩ ∧
      ∃ last, address.segments.getLast? = some last ∧ last.kind = .can := by
  unfold operationQuery at h
  split at h
  · cases h
  · rename_i last hlast
    split at h
    · cases h
    · rename_i hcan
      cases h
      exact ⟨rfl, last, hlast, not_not.mp hcan⟩

theorem propertyQuery_inv (h : address.propertyQuery = some (owner, name)) :
    owner = ⟨address.sourceSet, address.segments.dropLast, none⟩ ∧
      address.segments.dropLast ≠ [] := by
  unfold propertyQuery at h
  split at h
  · cases h
  · rename_i last hlast
    simp only at h
    split at h
    · cases h
    · rename_i hprops
      obtain ⟨found, -, heq⟩ := map_eq_some_iff.mp h
      cases heq
      rw [not_or] at hprops
      exact ⟨rfl, hprops.2⟩

/-- A question has a node in front of it. -/
theorem question_length {last : AddressSegment}
    (h : parse raw = .ok address) (hlast : address.segments.getLast? = some last)
    (hcan : last.kind = .can) : 1 < address.segments.length := by
  have hroot : rootQuestion address.segments = address.segments := by
    obtain hwell | hselected := parse_inv h
    · exact hwell.root
    · have hbody := hselected.body.root
      rw [withoutLineRange_eq] at hbody
      exact hbody
  match hsegments : address.segments with
  | [] =>
    rw [hsegments] at hlast
    cases hlast
  | [only] =>
    rw [hsegments] at hlast hroot
    cases hlast
    exact absurd hcan (rootQuestion_fixed hroot)
  | _ :: _ :: _ => simp

theorem describesForm_length (h : describesForm segments = true) : 1 < segments.length := by
  unfold describesForm at h
  split at h
  · simp
  · simp
  · cases h

/-- **One canonical spelling.** An accepted address, its leading segments, the address without
its lines and the owners its questions name are all read back from what they print, and two
accepted addresses print the same text only if they are the same. -/
theorem accepted_address_read_back (raw : Text) (address : QualifiedAddress)
    (h : parse raw = .ok address) :
    parse address.display = .ok address ∧
    (∀ n, 0 < n → parse (address.firstSegments n).display = .ok (address.firstSegments n)) ∧
    parse address.withoutLineRange.display = .ok address.withoutLineRange ∧
    (∀ owner operation, address.operationQuery = some (owner, operation) →
      parse owner.display = .ok owner) ∧
    (∀ owner name, address.propertyQuery = some (owner, name) → parse owner.display = .ok owner) ∧
    (∀ owner, address.formMetadataOwner = some owner → parse owner.display = .ok owner) ∧
    ∀ raw' other, parse raw' = .ok other → (address.display = other.display ↔ address = other) := by
  have hback := parse_display h
  have hfirst (n : Nat) (hn : 0 < n) := (firstSegments_wellFormed h hn).parse_display
  refine ⟨hback, hfirst, ?_, ?_, ?_, ?_, ?_⟩
  · apply hfirst
    rw [length_pos_iff]
    obtain hwell | hselected := parse_inv h
    · exact hwell.nonempty
    · have hbody := hselected.body.nonempty
      rw [withoutLineRange_eq] at hbody
      exact hbody
  · intro owner operation hquery
    obtain ⟨howner, last, hlast, hcan⟩ := operationQuery_inv hquery
    exact (owner_wellFormed h (question_length h hlast hcan) howner).parse_display
  · intro owner name hquery
    obtain ⟨howner, hne⟩ := propertyQuery_inv hquery
    have hlength := length_pos_iff.mpr hne
    rw [length_dropLast] at hlength
    exact (owner_wellFormed h (by omega) howner).parse_display
  · intro owner howner
    rw [formMetadataOwner_eq] at howner
    split at howner
    · rename_i hform
      cases howner
      have hlength := describesForm_length hform
      exact hfirst _ (by omega)
    · cases howner
  · intro raw' other hother
    constructor
    · intro hsame
      have hotherBack := parse_display hother
      rw [← hsame, hback] at hotherBack
      exact Except.ok.inj hotherBack
    · intro hsame
      rw [hsame]

/-- The method branch of a common module. -/
def moduleMethods : QualifiedAddress :=
  ⟨['m'], [⟨.commonModule, some ['M']⟩, ⟨.method, none⟩], none⟩

/-- Two lines of the body of a common module. -/
def moduleLines : QualifiedAddress :=
  ⟨['m'], [⟨.commonModule, some ['M']⟩, ⟨.body, none⟩],
    some ⟨3, 4, false, Nat.succ_pos 2, by decide, by decide, by decide⟩⟩

/-- Lines of a module body are read from their text. -/
theorem moduleLines_parse : parse moduleLines.display = .ok moduleLines := by
  decide +kernel

theorem moduleLines_read_back : parse moduleLines.display = .ok moduleLines ∧
      parse moduleLines.withoutLineRange.display = .ok moduleLines.withoutLineRange :=
  ⟨moduleLines_parse, (accepted_address_read_back _ _ moduleLines_parse).2.2.1⟩

/-! ## Members -/

/-- A last segment that is no question was read as it is. -/
theorem rootQuestion_of_last {last : AddressSegment}
    (h : (rootQuestion segments).getLast? = some last) (hcan : last.kind ≠ .can) :
    rootQuestion segments = segments := by
  apply rootQuestion_of_ne_can
  rintro can rfl hkind
  rw [rootQuestion, if_pos hkind] at h
  cases h
  exact hcan hkind

/-- An escaped name behind the text of a branch names the branch. -/
theorem PathRead.member (h : PathRead raw branch)
    (hlast : branch.segments = before ++ [⟨kind, none⟩]) (hkind : Bearing kind)
    (hmember : PathRead (raw ++ '.' :: escaped '.' '\\' name) address) :
    address = ⟨branch.sourceSet, before ++ [⟨kind, some name⟩], none⟩ := by
  obtain ⟨hset, hpath⟩ := h.logicalPath_append hmember
  obtain ⟨earlier, last, hparts, hgoes⟩ := splitEscaped_append h.split
  have hsplit := hmember.split
  rw [hpath, hgoes, splitEscaped_sep (by decide), Option.map_map] at hsplit
  obtain ⟨more, hmore, hmemberParts⟩ := map_eq_some_iff.mp hsplit
  obtain ⟨-, rfl⟩ := splitEscaped_escaped_inv (by decide) hmore
  have hbranch : (rootQuestion h.segments).getLast? = some ⟨kind, none⟩ := by
    rw [← h.rootSegments, hlast, getLast?_concat]
  have hread : h.segments = before ++ [⟨kind, none⟩] := by
    rw [← hlast, h.rootSegments, rootQuestion_of_last hbranch hkind.notCan]
  have hreads : Reads [] (h.parts ++ [⟨escaped '.' '\\' name, name⟩]) hmember.segments := by
    have hmemberReads := hmember.reads
    rw [← hmemberParts] at hmemberReads
    simpa [hparts] using hmemberReads
  have hsegments : hmember.segments = before ++ [⟨kind, some name⟩] := by
    have hnamed := h.reads.append_name (by rw [hread, getLast?_concat]) hkind hreads
    rw [hnamed, hread, dropLast_concat]
  have hroot : rootQuestion hmember.segments = hmember.segments := by
    apply rootQuestion_of_ne_can
    intro can hone hcan
    have hcanLast : hmember.segments.getLast? = some can := by
      rw [hone, getLast?_singleton]
    rw [hsegments, getLast?_concat] at hcanLast
    cases hcanLast
    exact hkind.notCan hcan
  rw [← hset, ← hsegments, ← hroot, ← hmember.rootSegments, ← hmember.noLines]

section

variable (h : WellFormed branch) (hlast : branch.segments = before ++ [⟨kind, none⟩]) (hkind : Bearing kind)
include h hlast hkind

/-- The text before the first mark of a member's address does not end in a nameless `Body`. -/
theorem member_owner_not_body {body : QualifiedAddress} {owner selector : Text}
    (htext : branch.display ++ '.' :: escaped '.' '\\' name = owner ++ '#' :: selector)
    (hfirst : '#' ∉ owner) (hbody : parsePath owner = .ok body) : body.endsInBody = false := by
  rw [← Bool.not_eq_true]
  intro hends
  by_cases hmark : '#' ∈ branch.display
  · -- The mark stands in a name of the branch itself, which is read whole.
    obtain ⟨front, back, hdisplay, hfront⟩ := eq_append_cons_of_mem hmark
    have hsame : front ++ '#' :: (back ++ '.' :: escaped '.' '\\' name) =
        owner ++ '#' :: selector := by
      rw [← htext, hdisplay]
      simp
    obtain ⟨rfl, -⟩ := splitOnce_unique hfront hfirst hsame
    have hwhole := h.parsePath_display
    rw [hdisplay] at hwhole
    exact parsePath_marked hbody hends hwhole
  · -- The mark stands in the new name, and what is before it names the branch.
    have hname : '#' ∈ name := by
      have hmem : '#' ∈ branch.display ++ '.' :: escaped '.' '\\' name := by
        rw [htext]
        simp
      rw [mem_append, mem_cons, mem_escaped (by decide) (by decide)] at hmem
      simpa [hmark] using hmem
    obtain ⟨front, back, rfl, hfront⟩ := eq_append_cons_of_mem hname
    have hsame : (branch.display ++ '.' :: escaped '.' '\\' front) ++
        '#' :: escaped '.' '\\' back = owner ++ '#' :: selector := by
      rw [← htext, escaped_append, escaped_cons]
      simp
    have hplain : '#' ∉ branch.display ++ '.' :: escaped '.' '\\' front := by
      rw [mem_append, mem_cons, mem_escaped (by decide) (by decide)]
      simp [hmark, hfront]
    obtain ⟨rfl, -⟩ := splitOnce_unique hplain hfirst hsame
    obtain ⟨read⟩ := h.pathRead
    obtain ⟨owned⟩ := parsePath_inv hbody
    rw [read.member hlast hkind owned, endsInBody_iff, getLast?_concat] at hends
    cases hends

/-- A member is read behind its branch: no mark in its name is taken for a selector. -/
theorem member_parsePath (hmember : branch.member name = .ok address) :
    parsePath (branch.display ++ '.' :: escaped '.' '\\' name) = .ok address := by
  rw [member, memberAddress, escapeName_eq, parse, parseWith] at hmember
  split at hmember
  · exact hmember
  · rename_i owner selector hsplit
    obtain ⟨htext, hfirst⟩ := splitOnce_eq_some hsplit
    split at hmember
    · exact hmember
    · rename_i body hbody
      rw [member_owner_not_body h hlast hkind htext hfirst hbody] at hmember
      exact hmember

theorem member_eq (hmember : branch.member name = .ok address) :
    address = ⟨branch.sourceSet, before ++ [⟨kind, some name⟩], none⟩ := by
  obtain ⟨read⟩ := h.pathRead
  obtain ⟨named⟩ := parsePath_inv (member_parsePath h hlast hkind hmember)
  exact read.member hlast hkind named

end

/-- **A name adds nothing but itself.** Whatever letters a name holds, the member of a branch
by that name, if there is one, is the branch with its last segment named so. -/
theorem member_adds_its_name (raw : Text) (branch : QualifiedAddress)
    (before : List AddressSegment) (kind : NodeKind)
    (hbranch : parse raw = .ok branch) (hlines : branch.lineRange = none)
    (hlast : branch.segments = before ++ [⟨kind, none⟩]) (htakes : kind.takesName = true)
    (hcan : kind ≠ .can) (hprops : kind ≠ .props) :
    (∀ name address, branch.member name = .ok address →
      address.sourceSet = branch.sourceSet ∧ address.lineRange = none ∧
        address.segments = before ++ [⟨kind, some name⟩]) ∧
    ∀ name name' address address', branch.member name = .ok address →
      branch.member name' = .ok address' → name ≠ name' → address ≠ address' := by
  have hkind : Bearing kind := ⟨hcan, hprops, htakes⟩
  have hwell : WellFormed branch := by
    obtain hwell | hselected := parse_inv hbranch
    · exact hwell
    · exact absurd hlines hselected.lines
  constructor
  · intro name address hmember
    rw [member_eq hwell hlast hkind hmember]
    exact ⟨rfl, rfl, rfl⟩
  · intro name name' address address' hmember hmember' hne hsame
    rw [member_eq hwell hlast hkind hmember, member_eq hwell hlast hkind hmember'] at hsame
    simp [hne] at hsame

/-- One method of the module, by its name. -/
def moduleRun : QualifiedAddress :=
  ⟨['m'], [⟨.commonModule, some ['M']⟩, ⟨.method, some ['R']⟩], none⟩

theorem moduleMethods_member : moduleMethods.member ['R'] = .ok moduleRun := by
  decide +kernel

theorem moduleMethods_member_named : moduleMethods.member ['R'] = .ok moduleRun ∧
      moduleRun.segments = [⟨.commonModule, some ['M']⟩, ⟨.method, some ['R']⟩] :=
  ⟨moduleMethods_member,
    ((member_adds_its_name moduleMethods.display moduleMethods [⟨.commonModule, some ['M']⟩] .method
      (by decide +kernel) rfl rfl rfl (by decide) (by decide)).1 ['R'] moduleRun
      moduleMethods_member).2.2⟩

end Unica.Address
