import Unica.Address.Routes

/-!
# Reading an address

`QualifiedAddress::parse`: the source set before the first colon, the parts between the bare
dots, and the loop that takes a kind and, where the kind carries one, a name. `Can` takes the
rest of the address as the name of an operation, and a branch without a name yields to a
`Can` behind which no kind follows. A `#` is a selector of lines only behind a nameless `Body`.
-/

namespace Unica.Address

open Lib

/-! ## Parts -/

def splitSegments (logicalPath : Text) : Except AddressError (List (Piece Char)) :=
  okOr ⟨.invalidName, "`\\` in a logical address escapes only a literal dot of a name: `\\.`"⟩
    (splitEscaped '.' '\\' [] [] logicalPath)

/-- The name of an operation is everything behind `Can`, as it is written. -/
def operationSegment (rest : List (Piece Char)) : Except AddressError AddressSegment :=
  let operation := List.intercalate ['.'] (rest.map (·.raw))
  if !operation.isEmpty && !xmlNcnameIsValid operation then
    .error ⟨.invalidName, "invalid operation name `" ++ String.ofList operation ++ "`"⟩
  else .ok ⟨.can, if operation.isEmpty then none else some operation⟩

/-- A property is named by the one part that ends the address. -/
def propertySegment : List (Piece Char) → Except AddressError AddressSegment
  | [property] => .ok ⟨.props, some property.text⟩
  | _ => .error ⟨.invalidName,
      "Props names one property and ends the address: `<node>.Props.<name>`"⟩

/-- `Can` with no kind behind it is a question to the branch, not the branch's name. -/
def asksDictionary : List (Piece Char) → Bool
  | can :: next :: _ => can.text == NodeKind.can.asStr.toList && !(NodeKind.parse next.text).isOk
  | _ => false

def checkName (kind : NodeKind) (owners : List AddressSegment) (name : Text) :
    Except AddressError Unit := do
  refuseIf (name.contains '.' = true ∧ kind.nameMayContainDot owners = false)
    ⟨.invalidName, "a `" ++ kind.asStr ++ "` name has no dot; `" ++ String.ofList name ++
      "` joins several segments"⟩
  refuseIf (xmlNcnameIsValid name = false ∧ kind.nameIsFreeText owners = false)
    ⟨.invalidName, "invalid application name `" ++ String.ofList name ++ "`"⟩

/-- Behind a kind that carries no name stands a kind or nothing. -/
def checkNameless (kind : NodeKind) : List (Piece Char) → Except AddressError Unit
  | [] => .ok ()
  | written :: _ =>
    refuseIf ((NodeKind.parse written.text).isOk = false)
      ⟨.configurationRootOnly, "`" ++ kind.asStr ++ "` has no application name; `" ++
        String.ofList written.text ++ "` cannot follow it"⟩

/-- The loop over the parts, with the segments it has read. -/
def parseSegments (segments : List AddressSegment) :
    List (Piece Char) → Except AddressError (List AddressSegment)
  | [] => .ok segments
  | part :: rest =>
    match NodeKind.parse part.text with
    | .error e => .error e
    | .ok kind =>
      if kind = .can then (operationSegment rest).map fun segment => segments ++ [segment]
      else if kind = .props then (propertySegment rest).map fun segment => segments ++ [segment]
      else if kind.takesName && !asksDictionary rest then
        match rest with
        | [] => .ok (segments ++ [⟨kind, none⟩])
        | name :: rest =>
          match checkName kind segments name.text with
          | .error e => .error e
          | .ok _ => parseSegments (segments ++ [⟨kind, some name.text⟩]) rest
      else
        match checkNameless kind rest with
        | .error e => .error e
        | .ok _ => parseSegments (segments ++ [⟨kind, none⟩]) rest

/-! ## Addresses -/

/-- A question to the dictionary of the root is written with its root. -/
def rootQuestion : List AddressSegment → List AddressSegment
  | [can] => if can.kind = .can then [⟨.configuration, none⟩, can] else [can]
  | segments => segments

def soleConfigurationRoot : List AddressSegment → Bool
  | [root] => root.kind == .configuration && root.name.isNone
  | [root, can] => root.kind == .configuration && root.name.isNone && can.kind == .can
  | _ => false

/-- The node a question to a dictionary is about, or the address itself. -/
def metadataSubject (address : QualifiedAddress) : QualifiedAddress :=
  match address.operationQuery with
  | some (owner, _) => owner
  | none => address

def checkAddress (address : QualifiedAddress) : Except AddressError QualifiedAddress := do
  refuseIf (soleConfigurationRoot address.segments = false ∧
      address.segments.any (fun segment => segment.kind == .configuration) = true)
    ⟨.configurationRootOnly, "Configuration is the single un-named configuration-root address"⟩
  let subject := metadataSubject address
  refuseIf (subject.segments.any (fun segment => segment.kind == .metadata) = true ∧
      subject.formMetadataOwner = none)
    ⟨.invalidName, "Metadata is the terminal nameless descriptor of a named form"⟩
  .ok address

namespace QualifiedAddress

/-- The part of `parse` behind the line selector. -/
def parsePath (raw : Text) : Except AddressError QualifiedAddress :=
  match splitOnce [':'] raw with
  | none => .error ⟨.sourceSetRequired, "qualified logical address requires a source-set prefix"⟩
  | some (sourceSet, logicalPath) => do
    refuseIf (sourceSet = [] ∨ xmlNcnameIsValid sourceSet = false)
      ⟨.sourceSetRequired, "qualified logical address requires a valid non-empty source set"⟩
    refuseIf (logicalPath = [])
      ⟨.addressEmpty, "qualified logical address has no logical path"⟩
    let parts ← splitSegments logicalPath
    refuseIf (∃ part ∈ parts, part.text = [])
      ⟨.emptySegment, "qualified logical address contains an empty segment"⟩
    let segments ← parseSegments [] parts
    checkAddress ⟨sourceSet, rootQuestion segments, none⟩

/-- The last segment is a `Body` without a name. -/
def endsInBody (address : QualifiedAddress) : Bool :=
  match address.segments.getLast? with
  | some segment => segment.kind == .body && segment.name.isNone
  | none => false

def selectLines (body : QualifiedAddress) (selector : Text) :
    Except AddressError QualifiedAddress := do
  refuseIf (body.lineRange.isSome = true) ⟨.invalidName, "Body accepts one line selector"⟩
  refuseIf (modulePrefixRoute body.segments = none)
    ⟨.invalidName, "line selectors address only a BSL module Body or Method Body"⟩
  let range ← BodyLineRange.parse selector
  .ok { body with lineRange := some range }

/-- The body of `parse`, with the reading of the text before a `#` left open. -/
def parseWith (parseOwner : Text → Except AddressError QualifiedAddress) (raw : Text) :
    Except AddressError QualifiedAddress :=
  match splitOnce ['#'] raw with
  | none => parsePath raw
  | some (owner, selector) =>
    match parseOwner owner with
    | .error _ => parsePath raw
    | .ok body => if body.endsInBody then selectLines body selector else parsePath raw

/-- The text before the first `#` holds none, so that its reading needs no selector. -/
def parse (raw : Text) : Except AddressError QualifiedAddress := parseWith parsePath raw

def memberAddress (branch : QualifiedAddress) (name : Text) : Text :=
  branch.display ++ '.' :: escapeName name

/-- The member of a collection by its name. -/
def member (branch : QualifiedAddress) (name : Text) : Except AddressError QualifiedAddress :=
  parse (branch.memberAddress name)

end QualifiedAddress

end Unica.Address
