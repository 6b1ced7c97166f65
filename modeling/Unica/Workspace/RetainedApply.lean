import Unica.Workspace.Publication

/-!
# The retained-apply transaction

`CompileTransaction::commit_retained_apply` with its journals: planned file changes below
existing or missing parents, directory removals, the validation before and after
publication, the reverse walk after an error and the cleanup of recovery copies after a
success. Read-only guards (path spellings, directory membership, reference inputs, the
final gate) are arbitrary tests of the tree and the journals.
-/

namespace Unica.Workspace

open Lib

inductive ApplyErrorKind where
  | cancelled | deadline | concurrentRevision | containmentIdentity | absentChainOccupied
  | provider | invariant | sourceSelectionChanged | rollbackIncomplete
  deriving DecidableEq

abbrev Check := Call Volume ApplyErrorKind

/-- A deadline or cancellation checkpoint. -/
def checkpoint : Check Unit := strike ⟨.commit, .checkpoint⟩ .cancelled

/-- A read-only look at one name. -/
def inspectChild (parent : Nat) (name : Name) : Check (Option Node) := do
  strike ⟨.commit, .inspect⟩ .provider
  pure ((← Call.get).tree.lookup (parent, name))

def Directory.checkNamedIdentity (directory : Directory) : Check Unit :=
  (directory.validateNamedIdentity ⟨.commit, .inspect⟩).mapError fun _ => .containmentIdentity

/-! ## Removed directories -/

/-- `ChildImage`: what a removed directory is known to hold. -/
inductive ChildImage where
  | directory (identity : Nat) (children : List (Name × ChildImage))
  | file (identity : Nat) (bytes : Bytes)

structure DirectoryImage where
  identity : Nat
  children : List (Name × ChildImage)

/-- The inventory of a directory is exactly the listed names. -/
def Tree.holdsOnly (t : Tree) (directory : Nat) (names : List Name) : Bool :=
  !t.existsValue fun k _ => k.1 = directory ∧ k.2 ∉ names

mutual

/-- The node under the image's name is the image's, with all it holds. -/
def ChildImage.stands (t : Tree) (node : Option Node) : ChildImage → Bool
  | .directory identity children =>
      node = some (.directory identity) && t.holdsOnly identity (children.map (·.1)) &&
        ChildImage.childrenStand t identity children
  | .file identity bytes => node = some (.file identity 1 bytes)

def ChildImage.childrenStand (t : Tree) (directory : Nat) : List (Name × ChildImage) → Bool
  | [] => true
  | (name, child) :: rest =>
      child.stands t (t.lookup (directory, name)) && ChildImage.childrenStand t directory rest

end

namespace DirectoryImage

def stands (t : Tree) (image : DirectoryImage) : Bool :=
  t.holdsOnly image.identity (image.children.map (·.1)) &&
    ChildImage.childrenStand t image.identity image.children

/-- `DirectoryImage::validate` -/
def validate (directory : Directory) (image : DirectoryImage) : Check Unit := do
  directory.checkNamedIdentity
  let v ← Call.get
  Call.ensure (directory.identity = image.identity) .concurrentRevision
  Call.ensure (image.stands v.tree) .concurrentRevision

end DirectoryImage

def removeForRetainedApply (kind : ArtifactKind) (file : RegularFile) : Check Unit := do
  let quarantineName ← drawName kind
  (file.removeNamedIdentityRelativeForRetainedApply quarantineName).mapError fun _ => .provider

def removeEmptyForRetainedApply (kind : ArtifactKind) (directory : Directory) : Check Unit := do
  let quarantineName ← drawName kind
  (directory.removeEmptyNamedIdentityRelativeForRetainedApply quarantineName).mapError fun _ =>
    .provider

mutual

/-- One child of a directory that is being cleaned up. -/
def ChildImage.cleanup (parent : Directory) (name : Name) : ChildImage → Check Unit
  | .directory identity children => do
      match ← inspectChild parent.identity name with
      | some (.directory found) => do
          let directory : Directory := .child parent name found
          DirectoryImage.validate directory ⟨identity, children⟩
          ChildImage.cleanupChildren directory children
          removeEmptyForRetainedApply .directoryStage directory
      | _ => Call.throw .containmentIdentity
  | .file identity bytes => do
      match ← inspectChild parent.identity name with
      | some (.file found links content) => do
          Call.ensure (found = identity ∧ links = 1 ∧ content = bytes) .concurrentRevision
          removeForRetainedApply .directoryStage ⟨parent, name, found⟩
      | _ => Call.throw .containmentIdentity

def ChildImage.cleanupChildren (directory : Directory) : List (Name × ChildImage) → Check Unit
  | [] => pure ()
  | (name, child) :: rest => do
      child.cleanup directory name
      ChildImage.cleanupChildren directory rest

end

/-- `DirectoryImage::cleanup` -/
def DirectoryImage.cleanup (directory : Directory) (image : DirectoryImage) : Check Unit := do
  image.validate directory
  ChildImage.cleanupChildren directory image.children
  removeEmptyForRetainedApply .directoryStage directory

/-- `DirectoryRemoval`: each name of the path with the identity of the directory it is in. -/
structure DirectoryRemoval where
  root : Directory
  route : List (Name × Nat)
  image : DirectoryImage

namespace DirectoryRemoval

def relative (plan : DirectoryRemoval) : List Name := plan.route.map (·.1)

def contains (plan : DirectoryRemoval) (path : List Name) : Bool := plan.relative.isPrefixOf path

def walkSource (image : DirectoryImage) (directory : Directory) :
    List (Name × Nat) → Check (Directory × Name × Directory)
  | [] => Call.throw .concurrentRevision
  | (part, identity) :: rest => do
      checkpoint
      directory.checkNamedIdentity
      Call.ensure (directory.identity = identity) .concurrentRevision
      match ← inspectChild directory.identity part with
      | some (.directory found) => do
          let child : Directory := .child directory part found
          match rest with
          | [] => do
              image.validate child
              pure (directory, part, child)
          | next :: rest => walkSource image child (next :: rest)
      | _ => Call.throw .containmentIdentity

/-- `validate_source`: the parent, the name in it and the directory to remove. -/
def validateSource (plan : DirectoryRemoval) : Check (Directory × Name × Directory) := do
  checkpoint
  walkSource plan.image plan.root plan.route

end DirectoryRemoval

structure PublishedRemoval where
  plan : DirectoryRemoval
  parent : Directory
  name : Name
  recovery : Directory
  recoveryName : Name

/-! ## Planned changes and journals -/

/-- `PlannedRetainedApplyChange`: the existing parents with their identities, the missing ones,
and the images before and after. -/
structure Entry where
  root : Directory
  route : List (Name × Nat)
  missing : List Name
  name : Name
  original : Option Bytes
  current : Option Bytes
  originalIdentity : Option Nat
  fingerprint : original.isSome = originalIdentity.isSome

def Entry.relativePath (e : Entry) : List Name := e.route.map (·.1) ++ e.missing ++ [e.name]

inductive ChangeKind where
  | create | update | remove
  deriving DecidableEq

structure PublishedChange where
  parent : Directory
  relativePath : List Name
  name : Name
  recoveryName : Option Name
  kind : ChangeKind
  published : Option RegularFile
  displaced : Option RegularFile

structure CreatedDirectory where
  parent : Directory
  name : Name
  directory : Directory
  published : Bool

/-- The volume and the three journals, the latest item first. -/
structure Session where
  volume : Volume
  published : List PublishedChange
  created : List CreatedDirectory
  removed : List PublishedRemoval

abbrev Apply := Call Session ApplyErrorKind

def onVolume {ε α : Type} (m : Call Volume ε α) : Call Session ε α :=
  Call.zoom Session.volume (fun v s => { s with volume := v }) m

def pushPublished (c : PublishedChange) : Apply Unit :=
  Call.modify fun s => { s with published := c :: s.published }

def pushCreated (c : CreatedDirectory) : Apply Unit :=
  Call.modify fun s => { s with created := c :: s.created }

def pushRemoved (c : PublishedRemoval) : Apply Unit :=
  Call.modify fun s => { s with removed := c :: s.removed }

def setPublished (file : Option RegularFile) : Apply Unit :=
  Call.modify fun s =>
    match s.published with
    | [] => s
    | c :: rest => { s with published := { c with published := file } :: rest }

/-! ## Validation -/

structure Binding where
  ancestor : Directory
  originalFile : Option RegularFile

def walkRoute (directory : Directory) : List (Name × Nat) → Check Directory
  | [] => pure directory
  | (name, expected) :: rest => do
      checkpoint
      match ← inspectChild directory.identity name with
      | some (.directory found) => do
          Call.ensure (found = expected) .containmentIdentity
          walkRoute (.child directory name found) rest
      | _ => Call.throw .containmentIdentity

/-- `retain_retained_apply_execution_binding` -/
def retainExecutionBinding (e : Entry) : Check Binding := do
  checkpoint
  e.root.checkNamedIdentity
  let ancestor ← walkRoute e.root e.route
  checkpoint
  match e.missing with
  | first :: _ => do
      Call.ensure (e.original = none) .invariant
      match ← inspectChild ancestor.identity first with
      | none => pure ⟨ancestor, none⟩
      | some _ => Call.throw .absentChainOccupied
  | [] => do
      match ← inspectChild ancestor.identity e.name with
      | none => do
          Call.ensure (e.original = none) .containmentIdentity
          pure ⟨ancestor, none⟩
      | some (.directory _) =>
          Call.throw (if e.original = none then .absentChainOccupied else .containmentIdentity)
      | some (.file identity links bytes) => do
          match e.originalIdentity, e.original with
          | some expected, some original => do
              Call.ensure (links = 1) .containmentIdentity
              Call.ensure (identity = expected) .concurrentRevision
              Call.ensure (bytes = original) .concurrentRevision
              pure ⟨ancestor, some ⟨ancestor, e.name, identity⟩⟩
          | _, _ => Call.throw .absentChainOccupied

/-- `validate_retained_apply_state_at_parent_typed` -/
def validateStateAtParent (e : Entry) (parent : Directory) (expected : Option Bytes) : Check Unit := do
  parent.checkNamedIdentity
  match ← inspectChild parent.identity e.name with
  | some (.file _ links bytes) => do
      Call.ensure (links = 1) .containmentIdentity
      Call.ensure (expected = some bytes)
        (if expected = none then .absentChainOccupied else .concurrentRevision)
  | some (.directory _) =>
      Call.throw (if expected = none then .absentChainOccupied else .containmentIdentity)
  | none => Call.ensure (expected = none) .containmentIdentity

/-- A closed transaction: source changes, workspace-cache changes, directory removals, and the
read-only guards before and after publication with the final gate. -/
structure Transaction where
  root : Directory
  source : List Entry
  cache : List Entry
  removals : List DirectoryRemoval
  admits : Tree → Bool
  accepts : Session → Bool
  gate : Session → Bool

namespace Transaction

variable (txn : Transaction)

def entries : List Entry := txn.source ++ txn.cache

def directoryContains (e : Entry) : Bool :=
  txn.removals.any fun plan => plan.root.identity = e.root.identity && plan.contains e.relativePath

/-- `validate_directory_plans`, given the plans before this one. -/
def validateDirectoryPlans (prior : List DirectoryRemoval) : List DirectoryRemoval → Check Unit
  | [] => pure ()
  | plan :: rest => do
      Call.ensure (txn.root.identity = plan.root.identity) .invariant
      Call.ensure (prior.all fun p => !p.contains plan.relative && !plan.contains p.relative)
        .invariant
      Call.ensure (txn.entries.all fun e => !(plan.root.identity = e.root.identity &&
        plan.contains e.relativePath && e.current.isSome)) .invariant
      let _ ← plan.validateSource
      validateDirectoryPlans (prior ++ [plan]) rest

def bindAll : List Entry → Check (List (Entry × Binding))
  | [] => pure []
  | e :: rest => do
      let binding ← retainExecutionBinding e
      let bound ← bindAll rest
      -- an entry inside a removed directory keeps no handle of its own
      if txn.directoryContains e then pure ((e, ⟨e.root, none⟩) :: bound)
      else pure ((e, binding) :: bound)

/-- `validate_retained_for_apply_and_bind` -/
def validateRetainedForApplyAndBind : Check (List (Entry × Binding) × List (Entry × Binding)) := do
  strike ⟨.commit, .inspect⟩ .provider
  let v ← Call.get
  Call.ensure (txn.admits v.tree) .concurrentRevision
  txn.validateDirectoryPlans [] txn.removals
  let source ← txn.bindAll txn.source
  let cache ← txn.bindAll txn.cache
  pure (source, cache)

end Transaction

/-! ## Publication -/

def publishDirectory (plan : DirectoryRemoval) : Apply Unit := do
  let (parent, name, directory) ← onVolume plan.validateSource
  let recoveryName ← onVolume (drawName .directoryStage)
  match ← (onVolume (parent.displaceDirectoryChildNoReplace name directory recoveryName)).reify with
  | .ok recovery => pushRemoved ⟨plan, parent, name, recovery, recoveryName⟩
  | .error failure => do
      match failure.artifact with
      | some (recovery, recoveryName, _) => pushRemoved ⟨plan, parent, name, recovery, recoveryName⟩
      | none => pure ()
      Call.throw .provider

/-- `owned_retained_apply_directory_child` -/
def ownedDirectoryChild (parent : Directory) (name : Name) : Apply (Option Directory) := do
  let s ← Call.get
  match s.created.reverse.find? fun owned =>
    owned.published && owned.parent.identity = parent.identity && owned.name = name with
  | none => pure none
  | some owned => do
      onVolume owned.directory.checkNamedIdentity
      pure (some owned.directory)

def publicationKind (error : IoError) : ApplyErrorKind :=
  if error = .alreadyExists ∨ error = .notFound then .containmentIdentity else .provider

def createParent (parent : Directory) (name : Name) : Apply Directory := do
  let privateName ← onVolume (drawName .directoryStage)
  match ← (onVolume (parent.createDirectoryChildAtomically privateName name)).reify with
  | .ok directory => do
      pushCreated ⟨parent, name, directory, true⟩
      pure directory
  | .error failure => do
      match failure.artifact with
      | some (directory, artifactName, published) =>
          pushCreated ⟨parent, artifactName, directory, published⟩
      | none => pure ()
      Call.throw (publicationKind failure.error)

def createChain (parent : Directory) : List Name → Apply Directory
  | [] => pure parent
  | name :: rest => do
      match ← ownedDirectoryChild parent name with
      | some directory => createChain directory rest
      | none => do
          match ← onVolume (inspectChild parent.identity name) with
          | some _ => Call.throw .containmentIdentity
          | none => do
              let directory ← createParent parent name
              createChain directory rest

/-- `create_retained_apply_parent_chain` -/
def createParentChain (e : Entry) (binding : Binding) : Apply Directory := do
  onVolume e.root.checkNamedIdentity
  onVolume binding.ancestor.checkNamedIdentity
  createChain binding.ancestor e.missing

/-- `validate_displaced_apply_preimage_typed` -/
def validateDisplacedPreimage (displaced : RegularFile) (expected : Bytes) : Check Unit := do
  match ← inspectChild displaced.parent.identity displaced.name with
  | some (.file _ links bytes) => do
      Call.ensure (links = 1) .containmentIdentity
      Call.ensure (bytes = expected) .concurrentRevision
  | _ => Call.throw .provider

def displacementKind (error : IoError) : ApplyErrorKind :=
  if error = .other then .provider else .containmentIdentity

/-- The write of a planned image: the published file of the journal's latest change. -/
def publishReplacement (parent : Directory) (name : Name) (bytes : Bytes) : Apply Unit := do
  let stageName ← onVolume (drawName .stage)
  match ← (onVolume (parent.createRegularChildAtomically stageName name bytes)).reify with
  | .ok published => setPublished (some published)
  | .error failure => do
      setPublished failure.published
      Call.throw (publicationKind failure.error)

def publishCreate (e : Entry) (parent : Directory) (bytes : Bytes) : Apply Unit := do
  let change (published : RegularFile) : PublishedChange :=
    ⟨parent, e.relativePath, e.name, none, .create, some published, none⟩
  let stageName ← onVolume (drawName .stage)
  match ← (onVolume (parent.createRegularChildAtomically stageName e.name bytes)).reify with
  | .ok published => pushPublished (change published)
  | .error failure => do
      match failure.published with
      | some published => pushPublished (change published)
      | none => pure ()
      Call.throw (publicationKind failure.error)

def publishDisplacement (e : Entry) (parent : Directory) (expected : RegularFile)
    (original : Bytes) : Apply Unit := do
  let recoveryName ← onVolume (drawName .stage)
  let displaced ← (onVolume (parent.displaceRegularChildNoReplace e.name expected
    recoveryName)).mapError displacementKind
  pushPublished ⟨parent, e.relativePath, e.name, some recoveryName,
    if e.current.isSome then .update else .remove, none, some displaced⟩
  onVolume (validateDisplacedPreimage displaced original)
  match e.current with
  | some bytes => publishReplacement parent e.name bytes
  | none => pure ()

/-- The parent a change is made in; missing parents are created first. -/
def changeParent (e : Entry) (binding : Binding) : Apply Directory := do
  match e.missing with
  | [] => pure binding.ancestor
  | _ :: _ => do
      let parent ← createParentChain e binding
      onVolume (validateStateAtParent e parent e.original)
      pure parent

/-- `publish_retained_apply_change_inner` -/
def publishChange (e : Entry) (binding : Binding) : Apply Unit := do
  if e.original = e.current then pure ()
  else do
    let parent ← changeParent e binding
    onVolume parent.checkNamedIdentity
    match e.original, e.current with
    | none, some bytes => publishCreate e parent bytes
    | some original, _ => do
        match binding.originalFile with
        | none => Call.throw .invariant
        | some expected => publishDisplacement e parent expected original
    | none, none => Call.throw .invariant

/-- The parents of an entry as they are after publication. -/
def ownedChain (parent : Directory) : List Name → Apply Directory
  | [] => pure parent
  | name :: rest => do
      match ← ownedDirectoryChild parent name with
      | some directory => ownedChain directory rest
      | none => Call.throw .invariant

/-- Follow the missing parents of an entry that stays absent. -/
def observeAbsent (e : Entry) (parent : Directory) : List Name → Check Unit
  | [] => validateStateAtParent e parent none
  | name :: rest => do
      match ← inspectChild parent.identity name with
      | some (.directory found) => observeAbsent e (.child parent name found) rest
      | none => pure ()
      | some (.file ..) => Call.throw .containmentIdentity

/-- `validate_retained_apply_postimage` -/
def validatePostimage (e : Entry) (binding : Binding) : Apply Unit := do
  match e.missing with
  | [] => do
      onVolume e.root.checkNamedIdentity
      onVolume (validateStateAtParent e binding.ancestor e.current)
  | _ :: _ =>
      if e.original = none ∧ e.current = none then
        onVolume (observeAbsent e binding.ancestor e.missing)
      else do
        onVolume e.root.checkNamedIdentity
        let parent ← ownedChain binding.ancestor e.missing
        onVolume (validateStateAtParent e parent e.current)

/-- `validate_journal_recoveries` -/
def validateJournalRecoveries (root : Directory) (published : List PublishedChange) : Check Unit := do
  root.checkNamedIdentity
  published.reverse |> Call.each fun c => do
    match c.recoveryName, c.displaced with
    | some _, some recovery => do
        c.parent.checkNamedIdentity
        match ← inspectChild recovery.parent.identity recovery.name with
        | some (.file identity links _) => do
            Call.ensure (identity = recovery.identity) .containmentIdentity
            Call.ensure (links = 1) .containmentIdentity
        | _ => Call.throw .containmentIdentity
    | none, none => pure ()
    | _, _ => Call.throw .invariant

/-- `PublishedDirectoryRemoval::validate` -/
def PublishedRemoval.validate (r : PublishedRemoval) : Check Unit := do
  r.plan.image.validate r.recovery
  match ← inspectChild r.parent.identity r.name with
  | none => pure ()
  | some _ => Call.throw .concurrentRevision

/-! ## Cleanup after success -/

/-- `RetainedApplyCleanupDiagnostic` -/
structure CleanupDiagnostic where
  logicalTarget : List Name
  artifactName : Name
  deriving DecidableEq

/-- `CommitReport`, without the texts of its warnings. -/
structure Report where
  created : List (List Name)
  updated : List (List Name)
  cleanupDiagnostics : List CleanupDiagnostic
  deriving DecidableEq

def finalizeChange (c : PublishedChange) : Check (List CleanupDiagnostic) := do
  match c.displaced, c.recoveryName with
  | some displaced, some recoveryName => do
      match ← (removeForRetainedApply .stage displaced).reify with
      | .ok () => pure []
      | .error _ => pure [⟨c.relativePath, recoveryName⟩]
  | _, _ => pure []

def finalizeRemoval (r : PublishedRemoval) : Check (List CleanupDiagnostic) := do
  match ← (r.plan.image.cleanup r.recovery).reify with
  | .ok () => pure []
  | .error _ => pure [⟨r.plan.relative, r.recoveryName⟩]

/-- The diagnostics of one cleanup after another. -/
def collect {α β : Type} (f : α → Check (List β)) : List α → Check (List β)
  | [] => pure []
  | x :: rest => do
      let found ← f x
      let more ← collect f rest
      pure (found ++ more)

/-! ## The reverse walk -/

inductive RollbackFailure where
  | publishedPreserved | createCapabilityMissing | hardLinkAlias | displacedPreserved
  | directoryPreserved | removalPreserved
  deriving DecidableEq

def rollbackPublished (c : PublishedChange) : Check (List RollbackFailure) := do
  match c.published with
  | some file => do
      match ← (removeForRetainedApply .stage file).reify with
      | .ok () => pure []
      | .error _ => pure [.publishedPreserved]
  | none => pure (if c.kind = .create then [.createCapabilityMissing] else [])

def rollbackDisplaced (c : PublishedChange) : Check (List RollbackFailure) := do
  match c.displaced with
  | none => pure []
  | some displaced => do
      match (← Call.get).tree.lookup (displaced.parent.identity, displaced.name) with
      | some (.file _ 1 _) => do
          match ← (c.parent.restoreDisplacedRegularChildNoReplace displaced c.name).reify with
          | .ok () => pure []
          | .error _ => pure [.displacedPreserved]
      | _ => pure [.hardLinkAlias]

/-- One change of `rollback_retained_apply`: the published file goes, the displaced one returns. -/
def rollbackChange (c : PublishedChange) : Check (List RollbackFailure) := do
  let published ← rollbackPublished c
  let displaced ← rollbackDisplaced c
  pure (published ++ displaced)

def rollbackCreated (c : CreatedDirectory) : Check (List RollbackFailure) := do
  match ← (removeEmptyForRetainedApply .directoryCleanup c.directory).reify with
  | .ok () => pure []
  | .error _ => pure [.directoryPreserved]

/-- `PublishedDirectoryRemoval::rollback` -/
def rollbackRemoval (r : PublishedRemoval) : Check (List RollbackFailure) := do
  match ← (r.plan.image.validate r.recovery).reify with
  | .error _ => pure [.removalPreserved]
  | .ok () => do
      match ← (r.parent.restoreDisplacedDirectoryChildNoReplace r.recovery r.name).reify with
      | .ok _ => pure []
      | .error _ => pure [.removalPreserved]

/-- `rollback_retained_apply`, then `rollback_removed_directories`. -/
def rollback (s : Session) : Check (List RollbackFailure) := do
  let changes ← collect rollbackChange s.published
  let directories ← collect rollbackCreated s.created
  let removals ← collect rollbackRemoval s.removed
  pure (changes ++ directories ++ removals)

/-! ## Commit -/

namespace Transaction

variable (txn : Transaction)

def report (diagnostics : List CleanupDiagnostic) : Report where
  created := (txn.entries.filter fun e => e.original.isNone && e.current.isSome).map
    Entry.relativePath
  updated := (txn.entries.filter fun e =>
    e.original.isSome && e.current.isSome && e.original != e.current).map Entry.relativePath
  cleanupDiagnostics := diagnostics

/-- The publication and the validation of what it left. -/
def publish (source cache : List (Entry × Binding)) : Apply Unit := do
  Call.each publishDirectory txn.removals
  source |> Call.each fun (e, binding) => do
    onVolume checkpoint
    if txn.directoryContains e then pure () else publishChange e binding
  let s ← Call.get
  onVolume (validateJournalRecoveries txn.root s.published)
  onVolume (Call.each PublishedRemoval.validate s.removed.reverse)
  cache |> Call.each fun (e, binding) => do
    onVolume checkpoint
    publishChange e binding
  (source ++ cache) |> Call.each fun (e, binding) => do
    onVolume checkpoint
    if txn.directoryContains e then pure () else validatePostimage e binding
  onVolume (strike ⟨.commit, .inspect⟩ .provider)
  let s ← Call.get
  Call.ensure (txn.accepts s) .concurrentRevision
  onVolume (Call.each PublishedRemoval.validate s.removed.reverse)
  onVolume checkpoint
  Call.ensure (txn.gate s) .sourceSelectionChanged

/-- Recovery copies go once the publication is accepted; what stays is reported. -/
def finalize (s : Session) : Check (List CleanupDiagnostic) := do
  let changes ← collect finalizeChange s.published.reverse
  let removals ← collect finalizeRemoval s.removed.reverse
  pure (changes ++ removals)

/-- `commit_retained_apply`. Nothing fails any more once the reverse walk has begun. -/
def commitRetainedApply : Check Report := do
  let (source, cache) ← txn.validateRetainedForApplyAndBind
  checkpoint
  let v ← Call.get
  match txn.publish source cache ⟨v, [], [], []⟩ with
  | (.ok (), s) => do
      Call.modify fun _ => s.volume
      let diagnostics ← finalize s
      pure (txn.report diagnostics)
  | (.error primary, s) => do
      Call.modify fun _ => { s.volume with fault := none }
      let failures ← rollback s
      if failures = [] then Call.throw primary else Call.throw .rollbackIncomplete

end Transaction

end Unica.Workspace
