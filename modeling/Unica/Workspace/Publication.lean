import Unica.Workspace.Volume

/-!
# Publication, displacement and removal of single children

The descriptor-relative operations of `platform/filesystem.rs` a retained apply is made of.
A publication error says whether the caller owns something it has to take back.
-/

namespace Unica.Workspace

open Lib

/-- `RetainedPublicationError`: after the rename the error carries the published file. -/
structure PublicationError where
  error : IoError
  published : Option RegularFile

namespace PublicationError

def beforeRename (error : IoError) : PublicationError := ⟨error, none⟩

def afterRename (error : IoError) (published : RegularFile) : PublicationError :=
  ⟨error, some published⟩

end PublicationError

/-- `RetainedDirectoryPublicationError`: the directory left behind, its name and whether it is
the public one. -/
structure DirectoryPublicationError where
  error : IoError
  artifact : Option (Directory × Name × Bool)

namespace DirectoryPublicationError

def withoutArtifact (error : IoError) : DirectoryPublicationError := ⟨error, none⟩

def withArtifact (error : IoError) (directory : Directory) (name : Name) (published : Bool) :
    DirectoryPublicationError :=
  ⟨error, some (directory, name, published)⟩

end DirectoryPublicationError

inductive MoveOutcome where
  | expected (file : RegularFile)
  | different (file : RegularFile)

/-- `remove_identity_bound_regular_child`: the name is moved to a fresh quarantine, observed
there and only then unlinked. -/
def removeIdentityBoundRegularChild (parent : Nat) (name : Name) (expected : Nat) : Io Unit := do
  let quarantineName ← drawName .cleanup
  renameIdentityBoundRegularChildNoReplace .cleanup parent name expected quarantineName
  let quarantined ← openRegularChildNofollow ⟨.cleanup, .openRenamed⟩ parent quarantineName
  if quarantined = expected then
    unlinkFile .cleanup parent quarantineName
  else do
    (renameIdentityBoundRegularChildNoReplace .cleanup parent quarantineName quarantined
      name).ignore
    Call.throw .other

/-- `remove_identity_bound_empty_directory_child` -/
def removeIdentityBoundEmptyDirectoryChild (place : Place) (parent : Nat) (name : Name)
    (expected : Nat) : Io Unit := do
  let named ← openDirectoryChildNofollow ⟨place, .inspect⟩ parent name
  Call.ensure (named = expected) .other
  unlinkDirectory place parent name

namespace RegularFile

def validateNamedIdentityRelative (site : Site) (file : RegularFile) : Io Unit := do
  let rebound ← openRegularChildNofollow site file.parent.identity file.name
  Call.ensure (rebound = file.identity) .invalidData

def removeNamedIdentityRelative (file : RegularFile) : Io Unit :=
  removeIdentityBoundRegularChild file.parent.identity file.name file.identity

end RegularFile

namespace Directory

/-- `observe_moved_regular_child`: the child is opened again under its new name. -/
def observeMovedRegularChild (place : Place) (self : Directory) (destination : Name)
    (expected : Nat) : Io MoveOutcome := do
  let observed ← openRegularChildNofollow ⟨place, .openRenamed⟩ self.identity destination
  let file : RegularFile := ⟨self, destination, observed⟩
  if observed = expected then pure (.expected file) else pure (.different file)

/-- `move_regular_child_no_replace_observed`: an error does not say whether the rename was made. -/
def moveRegularChildNoReplaceObserved (place : Place) (self : Directory) (source : Name)
    (expected : RegularFile) (destination : Name) : Io MoveOutcome := do
  renameIdentityBoundRegularChildNoReplace place self.identity source expected.identity destination
  self.observeMovedRegularChild place destination expected.identity

def restoreUnexpectedRegularChildMove (place : Place) (self : Directory) (movedName : Name)
    (moved : RegularFile) (source : Name) : Io Unit := do
  match ← self.moveRegularChildNoReplaceObserved place movedName moved source with
  | .expected _ => pure ()
  | .different _ => Call.throw .other

/-- `create_regular_child_atomically` -/
def createRegularChildAtomically (self : Directory) (stageName destination : Name)
    (bytes : Bytes) : Call Volume PublicationError RegularFile := do
  let identity ← (createNewRegularChild self.identity stageName).mapError .beforeRename
  -- the stage exists, but a failed read of its identity removes nothing
  strike ⟨.stage, .identify⟩ (.beforeRename .other)
  let written ← Call.reify do
    writeAll self.identity stageName identity bytes
    strike ⟨.stage, .sync⟩ IoError.other
  match written with
  | .error error => do
      (removeIdentityBoundRegularChild self.identity stageName identity).ignore
      Call.throw (.beforeRename error)
  | .ok () => do
      let staged : RegularFile := ⟨self, stageName, identity⟩
      match ← (self.moveRegularChildNoReplaceObserved .stage stageName staged destination).reify with
      | .ok (.expected published) => do
          let settled ← Call.reify do
            strike ⟨.stage, .sync⟩ IoError.other
            published.validateNamedIdentityRelative ⟨.stage, .validate⟩
          match settled with
          | .ok () => pure published
          | .error error => Call.throw (.afterRename error published)
      | .ok (.different different) => do
          match ← (self.restoreUnexpectedRegularChildMove .stage destination different
            stageName).reify with
          | .ok () => Call.throw (.beforeRename .other)
          | .error _ => Call.throw (.afterRename .other different)
      | .error error => do
          -- also taken when the rename was made and the open of the renamed child failed
          staged.removeNamedIdentityRelative.ignore
          Call.throw (.beforeRename error)

/-- `displace_regular_child_no_replace` -/
def displaceRegularChildNoReplace (self : Directory) (destination : Name) (expected : RegularFile)
    (recoveryName : Name) : Io RegularFile := do
  Call.ensure (expected.parent.identity = self.identity) .invalidInput
  match ← self.moveRegularChildNoReplaceObserved .displace destination expected recoveryName with
  | .expected displaced => pure displaced
  | .different different => do
      (self.restoreUnexpectedRegularChildMove .displace recoveryName different destination).ignore
      Call.throw .other

/-- `restore_displaced_regular_child_no_replace` -/
def restoreDisplacedRegularChildNoReplace (self : Directory) (displaced : RegularFile)
    (destination : Name) : Io Unit := do
  Call.ensure (displaced.parent.identity = self.identity) .invalidInput
  match ← self.moveRegularChildNoReplaceObserved .restore displaced.name displaced destination with
  | .expected _ => strike ⟨.restore, .sync⟩ .other
  | .different different => do
      (self.restoreUnexpectedRegularChildMove .restore destination different displaced.name).ignore
      Call.throw .other

/-- `create_directory_child`: the identity is read after the directory exists. -/
def createDirectoryChild (self : Directory) (name : Name) : Io Directory := do
  let identity ← createNewDirectoryChild self.identity name
  strike ⟨.directory, .identify⟩ .other
  pure (.child self name identity)

def retainDirectoryChild (site : Site) (self : Directory) (name : Name) : Io Directory := do
  let identity ← openDirectoryChildNofollow site self.identity name
  pure (.child self name identity)

/-- `remove_empty_named_identity_relative` -/
def removeEmptyNamedIdentityRelative (place : Place) : Directory → Io Unit
  | root _ _ => Call.throw .invalidInput
  | child parent name identity =>
      removeIdentityBoundEmptyDirectoryChild place parent.identity name identity

/-- `create_directory_child_atomically` -/
def createDirectoryChildAtomically (self : Directory) (privateName destination : Name) :
    Call Volume DirectoryPublicationError Directory := do
  let created ← (self.createDirectoryChild privateName).mapError .withoutArtifact
  match ← (renameIdentityBoundDirectoryChildNoReplace .directory self.identity privateName
    created.identity destination).reify with
  | .error error => do
      match ← (created.removeEmptyNamedIdentityRelative .directory).reify with
      | .ok () => Call.throw (.withoutArtifact error)
      | .error _ => Call.throw (.withArtifact error created privateName false)
  | .ok () => do
      match ← (self.retainDirectoryChild ⟨.directory, .openRenamed⟩ destination).reify with
      | .error error =>
          Call.throw (.withArtifact error (.child self destination created.identity) destination true)
      | .ok published =>
          if published.identity = created.identity then do
            let settled ← Call.reify do
              strike ⟨.directory, .sync⟩ IoError.other
              published.validateNamedIdentity ⟨.directory, .validate⟩
            match settled with
            | .ok () => pure published
            | .error error => Call.throw (.withArtifact error published destination true)
          else do
            (renameIdentityBoundDirectoryChildNoReplace .directory self.identity destination
              published.identity privateName).ignore
            Call.throw (.withoutArtifact .other)

/-- `restore_unexpected_directory_move`: the error names what was observed where. -/
def restoreUnexpectedDirectoryMove (self : Directory) (movedName : Name) (moved : Directory)
    (source : Name) : Call Volume (IoError × Directory × Name) Unit := do
  (renameIdentityBoundDirectoryChildNoReplace .removal self.identity movedName moved.identity
    source).mapError fun error => (error, moved, movedName)
  let restored : Directory := .child self source moved.identity
  let observed ← (self.retainDirectoryChild ⟨.removal, .openRenamed⟩ source).mapError
    fun error => (error, restored, source)
  Call.ensure (observed.identity = moved.identity) (.other, observed, source)
  strike ⟨.removal, .sync⟩ (.other, restored, source)

/-- `move_directory_child_no_replace_observed`: every error after the rename carries the
directory under its new name. -/
def moveDirectoryChildNoReplaceObserved (self : Directory) (source : Name) (expected : Directory)
    (destination : Name) : Call Volume DirectoryPublicationError Directory := do
  match expected with
  | .root _ _ => Call.throw (.withoutArtifact .invalidInput)
  | .child parent name _ => do
      Call.ensure (parent.identity = self.identity ∧ name = source) (.withoutArtifact .invalidInput)
      Call.ensure (source ≠ destination) (.withoutArtifact .invalidInput)
      (renameIdentityBoundDirectoryChildNoReplace .removal self.identity source expected.identity
        destination).mapError .withoutArtifact
      let rebound : Directory := .child self destination expected.identity
      let observed ← (self.retainDirectoryChild ⟨.removal, .openRenamed⟩ destination).mapError
        fun error => .withArtifact error rebound destination true
      if observed.identity = expected.identity then do
        (do strike ⟨.removal, .sync⟩ IoError.other
            rebound.validateNamedIdentity ⟨.removal, .validate⟩ : Io Unit).mapError
          fun error => .withArtifact error rebound destination true
        pure rebound
      else do
        match ← (self.restoreUnexpectedDirectoryMove destination observed source).reify with
        | .ok () => Call.throw (.withoutArtifact .other)
        | .error (error, artifact, name) => Call.throw (.withArtifact error artifact name true)

/-- `displace_directory_child_no_replace` -/
def displaceDirectoryChildNoReplace (self : Directory) (source : Name) (expected : Directory)
    (recoveryName : Name) : Call Volume DirectoryPublicationError Directory :=
  self.moveDirectoryChildNoReplaceObserved source expected recoveryName

/-- `restore_displaced_directory_child_no_replace` -/
def restoreDisplacedDirectoryChildNoReplace (self displaced : Directory) (destination : Name) :
    Call Volume DirectoryPublicationError Directory :=
  match displaced with
  | .root _ _ => Call.throw (.withoutArtifact .invalidInput)
  | .child _ name _ => self.moveDirectoryChildNoReplaceObserved name displaced destination

/-- `remove_empty_named_identity_relative_for_retained_apply`: a quarantined directory that
cannot be removed goes back to its name. -/
def removeEmptyNamedIdentityRelativeForRetainedApply (quarantineName : Name) : Directory → Io Unit
  | .root _ _ => Call.throw .invalidInput
  | .child parent name identity => do
      renameIdentityBoundDirectoryChildNoReplace .directoryQuarantine parent.identity name identity
        quarantineName
      let moved ← parent.retainDirectoryChild ⟨.directoryQuarantine, .openRenamed⟩ quarantineName
      let restore : Io Unit := renameIdentityBoundDirectoryChildNoReplace .directoryRestore
        parent.identity quarantineName moved.identity name
      if moved.identity = identity then do
        let cleanup ← Call.reify do
          moved.validateNamedIdentity ⟨.directoryQuarantine, .validate⟩
          moved.removeEmptyNamedIdentityRelative .directoryQuarantine
        match cleanup with
        | .ok () => pure ()
        | .error error => do
            restore.ignore
            Call.throw error
      else do
        restore.ignore
        Call.throw .other

end Directory

/-- `remove_named_identity_relative_for_retained_apply`: the file is quarantined under
`quarantineName` and deleted from there. -/
def RegularFile.removeNamedIdentityRelativeForRetainedApply (quarantineName : Name)
    (file : RegularFile) : Io Unit := do
  renameIdentityBoundRegularChildNoReplace .quarantine file.parent.identity file.name file.identity
    quarantineName
  match ← file.parent.observeMovedRegularChild .quarantine quarantineName file.identity with
  | .expected quarantined => do
      quarantined.validateNamedIdentityRelative ⟨.quarantine, .validate⟩
      quarantined.removeNamedIdentityRelative
  | .different different => do
      (file.parent.restoreUnexpectedRegularChildMove .quarantine quarantineName different
        file.name).ignore
      Call.throw .other

end Unica.Workspace
