import Unica.Lib.Call
import Unica.Lib.Table

/-!
# The volume a retained apply works on

Directories are named by their physical identity and every entry of the tree is a name in
a directory, as the descriptor-relative calls of `platform/filesystem.rs` (Unix) see it. A
volume also carries what is still to go wrong: at most one call, named by its place in the
code, its kind and how many such calls come before it.
-/

namespace Unica.Workspace

open Lib

/-- The private names the publication draws. -/
inductive ArtifactKind where
  /-- `.unica-apply-<uuid>` -/
  | stage
  /-- `.unica-apply-dir-<uuid>` -/
  | directoryStage
  /-- `.unica-apply-dir-cleanup-<uuid>` -/
  | directoryCleanup
  /-- `.unica-cleanup-<uuid>` -/
  | cleanup
  deriving DecidableEq

/-- A child name; a drawn name is told from every other by its serial. -/
inductive Name where
  | plain (text : String)
  | artifact (kind : ArtifactKind) (serial : Nat)
  deriving DecidableEq

abbrev Bytes := List UInt8

/-- What a name leads to. The number of hard links belongs to the file, not to the name. -/
inductive Node where
  | file (identity links : Nat) (bytes : Bytes)
  | directory (identity : Nat)
  deriving DecidableEq

def Node.identity : Node → Nat
  | .file identity _ _ => identity
  | .directory identity => identity

abbrev Key := Nat × Name

abbrev Tree := Table Key Node

/-- The directory absolute paths start from. -/
def top : Nat := 0

/-- Walk directories only, following no link. -/
def Tree.resolve (t : Tree) (directory : Nat) : List Name → Option Nat
  | [] => some directory
  | name :: rest =>
      match t.lookup (directory, name) with
      | some (.directory child) => Tree.resolve t child rest
      | _ => none

def Tree.isEmptyDirectory (t : Tree) (directory : Nat) : Bool :=
  !t.existsValue fun k _ => k.1 = directory

/-- Where a call stands in the code. -/
inductive Place where
  /-- `create_regular_child_atomically` -/
  | stage
  /-- `displace_regular_child_no_replace` -/
  | displace
  /-- `restore_displaced_regular_child_no_replace` -/
  | restore
  /-- `create_directory_child_atomically` -/
  | directory
  /-- `displace_directory_child_no_replace` and its restoration -/
  | removal
  /-- `remove_named_identity_relative_for_retained_apply` -/
  | quarantine
  /-- `remove_identity_bound_regular_child` -/
  | cleanup
  /-- `remove_empty_named_identity_relative_for_retained_apply` -/
  | directoryQuarantine
  /-- the way back of a quarantined directory that could not be removed -/
  | directoryRestore
  /-- the checks of the transaction itself -/
  | commit
  deriving DecidableEq

inductive FileCall where
  | create | openCreated | identify | write | sync | inspect | rename | openRenamed | validate
  | unlink | checkpoint
  deriving DecidableEq

structure Site where
  place : Place
  call : FileCall
  deriving DecidableEq

inductive IoError where
  | notFound | alreadyExists | invalidInput | invalidData | other
  deriving DecidableEq

structure Volume where
  tree : Tree
  nextIdentity : Nat
  nextSerial : Nat
  /-- The one call that will fail, and how many of its kind still succeed before it. -/
  fault : Option (Site × Nat)

abbrev Io := Call Volume IoError

/-- Does the next call at this site fail? -/
def Volume.strikes (v : Volume) (site : Site) : Bool := v.fault = some (site, 0)

/-- The call at this site was made. -/
def Volume.after (v : Volume) (site : Site) : Volume :=
  { v with
    fault := match v.fault with
      | some (site', n + 1) => if site' = site then some (site', n) else some (site', n + 1)
      | some (site', 0) => if site' = site then none else some (site', 0)
      | none => none }

/-- Make a call that can fail without an effect. -/
def strike {ε : Type} (site : Site) (error : ε) : Call Volume ε Unit := fun v =>
  if v.strikes site then (.error error, v.after site) else (.ok (), v.after site)

def drawName {ε : Type} (kind : ArtifactKind) : Call Volume ε Name := fun v =>
  (.ok (.artifact kind v.nextSerial), { v with nextSerial := v.nextSerial + 1 })

def setTree {ε : Type} (f : Tree → Tree) : Call Volume ε Unit :=
  Call.modify fun v => { v with tree := f v.tree }

def openRegularChildNofollow (site : Site) (parent : Nat) (name : Name) : Io Nat := do
  strike site .other
  match (← Call.get).tree.lookup (parent, name) with
  | some (.file identity _ _) => pure identity
  | some (.directory _) => Call.throw .invalidInput
  | none => Call.throw .notFound

def openDirectoryChildNofollow (site : Site) (parent : Nat) (name : Name) : Io Nat := do
  strike site .other
  match (← Call.get).tree.lookup (parent, name) with
  | some (.directory identity) => pure identity
  | some (.file ..) => Call.throw .invalidInput
  | none => Call.throw .notFound

/-- A new node under a name nobody has. -/
def createNode (site : Site) (parent : Nat) (name : Name) (node : Nat → Node) : Io Nat := do
  strike site .other
  let v ← Call.get
  if (v.tree.lookup (parent, name)).isSome then Call.throw .alreadyExists
  else do
    Call.modify fun v =>
      { v with tree := v.tree.insert (parent, name) (node v.nextIdentity)
               nextIdentity := v.nextIdentity + 1 }
    pure v.nextIdentity

def createNewRegularChild (parent : Nat) (name : Name) : Io Nat :=
  createNode ⟨.stage, .create⟩ parent name fun identity => .file identity 1 []

/-- The directory is made and then opened: a failed open leaves it where it is. -/
def createNewDirectoryChild (parent : Nat) (name : Name) : Io Nat := do
  let _ ← createNode ⟨.directory, .create⟩ parent name .directory
  openDirectoryChildNofollow ⟨.directory, .openCreated⟩ parent name

/-- Write through the handle of a file that is still under the name it was created with. -/
def writeAll (parent : Nat) (name : Name) (identity : Nat) (bytes : Bytes) : Io Unit := do
  strike ⟨.stage, .write⟩ .other
  setTree fun t =>
    match t.lookup (parent, name) with
    | some (.file identity' links _) =>
        if identity' = identity then t.insert (parent, name) (.file identity links bytes) else t
    | _ => t

/-- `renameat2(.., RENAME_NOREPLACE)` inside one directory. -/
def renameChildAtNoReplace (place : Place) (parent : Nat) (source destination : Name) : Io Unit := do
  strike ⟨place, .rename⟩ .other
  let v ← Call.get
  match v.tree.lookup (parent, source) with
  | none => Call.throw .notFound
  | some node =>
      if (v.tree.lookup (parent, destination)).isSome then Call.throw .alreadyExists
      else setTree fun t => (t.erase (parent, source)).insert (parent, destination) node

def renameIdentityBoundRegularChildNoReplace (place : Place) (parent : Nat) (source : Name)
    (expected : Nat) (destination : Name) : Io Unit := do
  let named ← openRegularChildNofollow ⟨place, .inspect⟩ parent source
  Call.ensure (named = expected) .other
  renameChildAtNoReplace place parent source destination

def renameIdentityBoundDirectoryChildNoReplace (place : Place) (parent : Nat) (source : Name)
    (expected : Nat) (destination : Name) : Io Unit := do
  let named ← openDirectoryChildNofollow ⟨place, .inspect⟩ parent source
  Call.ensure (named = expected) .other
  renameChildAtNoReplace place parent source destination

def unlinkFile (place : Place) (parent : Nat) (name : Name) : Io Unit := do
  strike ⟨place, .unlink⟩ .other
  match (← Call.get).tree.lookup (parent, name) with
  | some (.file ..) => setTree fun t => t.erase (parent, name)
  | some (.directory _) => Call.throw .invalidInput
  | none => Call.throw .notFound

def unlinkDirectory (place : Place) (parent : Nat) (name : Name) : Io Unit := do
  strike ⟨place, .unlink⟩ .other
  let v ← Call.get
  match v.tree.lookup (parent, name) with
  | some (.directory identity) =>
      if v.tree.isEmptyDirectory identity then setTree fun t => t.erase (parent, name)
      else Call.throw .other
  | some (.file ..) => Call.throw .invalidInput
  | none => Call.throw .notFound

/-- `RetainedDirectoryCapability`: a root found by its absolute path, or a child of a retained
directory. -/
inductive Directory where
  | root (path : List Name) (identity : Nat)
  | child (parent : Directory) (name : Name) (identity : Nat)
  deriving DecidableEq

namespace Directory

def identity : Directory → Nat
  | root _ identity => identity
  | child _ _ identity => identity

/-- Every name on the way still leads to the directory that was retained there. -/
def namedIdentityMatches (t : Tree) : Directory → Bool
  | root path identity => t.resolve top path = some identity
  | child parent name identity =>
      parent.namedIdentityMatches t && t.lookup (parent.identity, name) = some (.directory identity)

def validateNamedIdentity (site : Site) (directory : Directory) : Io Unit := do
  strike site .other
  let v ← Call.get
  Call.ensure (directory.namedIdentityMatches v.tree) .invalidData

end Directory

/-- `RetainedRegularFileCapability` -/
structure RegularFile where
  parent : Directory
  name : Name
  identity : Nat

end Unica.Workspace
