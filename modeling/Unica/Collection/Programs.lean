import Unica.Collection.Root

/-!
# Programs over the state root

`identity.rs`, `authority.rs` and `state_collection.rs`, call by call: how a state directory is
opened and proved to be the named one, how the two locks are taken, what a starting frontend and a
daemon do with them, and the collection of idle states. `None` and an error of the source are one
answer here: every caller ends, or goes on to the next name, on both. A wait until a deadline is a
number of attempts.
-/

namespace Unica.Collection

open Lib

abbrev Program := Routine Op Answer

def ask (op : Op) : Program (Answer op) := Routine.ask op

/-! ## Opening a state directory -/

/-- `named_identity_matches` for a directory retained by its path. -/
def isNamed (name : Name) (directory : Nat) : Program Bool := do
  let found : Option Nat ← ask (.openPath name)
  return found == some directory

def verifyIdentity (name : Name) (directory : Nat) : Program Bool := do
  if ← isNamed name directory then
    let owned : Bool ← ask .verifyOwnerOnly
    return owned
  else return false

/-- The end of `open_with`: the opened directory is retained by its path as well. -/
def admitDirectory (name : Name) (directory : Nat) : Program (Option Nat) := do
  let .true ← ask .verifyOwnerOnly | return none
  let .true ← isNamed name directory | return none
  let .true ← isNamed name directory | return none
  return some directory

def openFound (name : Name) : Program (Option Nat) := do
  match ← ask (.openChild name) with
  | .found directory => admitDirectory name directory
  | _ => return none

def openWith (name : Name) (create : Bool) : Program (Option Nat) := do
  match ← ask (.openChild name) with
  | .found directory => admitDirectory name directory
  | .failed => return none
  | .notFound =>
    if create then
      match ← ask (.makeChild name) with
      | .made => openFound name
      | .alreadyExists => openFound name
      | .failed => return none
    else return none

/-! ## The locks -/

def trySpawnLock (name : Name) (directory : Nat) : Program Bool := do
  let .true ← verifyIdentity name directory | return false
  match ← ask (.lockSpawn directory) with
  | .locked => return true
  | _ => return false

def awaitSpawnLock (directory : Nat) : Nat → Program Bool
  | 0 => return false
  | attempts + 1 => do
    match ← ask (.lockSpawn directory) with
    | .locked => return true
    | .contended => awaitSpawnLock directory attempts
    | .failed => return false

def acquireSpawnLockBefore (name : Name) (directory attempts : Nat) : Program Bool := do
  let .true ← verifyIdentity name directory | return false
  awaitSpawnLock directory attempts

def openAuthority (directory : Nat) : Program (Option Nat) := do
  match ← ask (.openAuthority directory) with
  | .found authority => return some authority
  | _ => return none

/-- `create_private_subdirectory` for the authority child. -/
def createPrivateSubdirectory (name : Name) (directory : Nat) : Program (Option Nat) := do
  let .true ← verifyIdentity name directory | return none
  match ← ask (.openAuthority directory) with
  | .found authority =>
    let .true ← ask .verifyOwnerOnly | return none
    return some authority
  | .failed => return none
  | .notFound =>
    match ← ask (.makeAuthority directory) with
    | .failed => return none
    | _ =>
      let some authority ← openAuthority directory | return none
      let .true ← ask .verifyOwnerOnly | return none
      return some authority

/-- `validate_named_identity` of the authority child: first the parent by its path, then the
child through the parent. -/
def validateAuthority (name : Name) (directory authority : Nat) : Program Bool := do
  let .true ← isNamed name directory | return false
  let found ← openAuthority directory
  return found == some authority

def createPrivateRetainedSubdirectory (name : Name) (directory : Nat) : Program (Option Nat) := do
  let some authority ← createPrivateSubdirectory name directory | return none
  let retained ← openAuthority directory
  if retained = some authority then
    let .true ← validateAuthority name directory authority | return none
    return some authority
  else return none

/-- `ReceiptAuthorityLock::try_acquire` -/
def tryAcquire (name : Name) (directory : Nat) : Program (Option Nat) := do
  let .true ← verifyIdentity name directory | return none
  let some authority ← createPrivateRetainedSubdirectory name directory | return none
  match ← ask (.lockAuthority authority) with
  | .locked => return some authority
  | _ => return none

def awaitAuthority (name : Name) (directory authority : Nat) : Nat → Program Bool
  | 0 => return false
  | attempts + 1 => do
    match ← ask (.lockAuthority authority) with
    | .locked =>
      if ← validateAuthority name directory authority then return true
      else
        let _ ← ask (.unlockAuthority authority)
        return false
    | .contended => awaitAuthority name directory authority attempts
    | .failed => return false

/-- `ReceiptAuthorityLock::acquire` -/
def acquire (name : Name) (directory attempts : Nat) : Program (Option Nat) := do
  let .true ← verifyIdentity name directory | return none
  let some authority ← createPrivateRetainedSubdirectory name directory | return none
  let .true ← ask .verifyOwnerOnly | return none
  let .true ← awaitAuthority name directory authority attempts | return none
  return some authority

/-! ## Frontends and daemons -/

def write (directory : Nat) (change : Change) : Program Unit := do
  let _ ← ask (.write directory change)

def serve (directory authority : Nat) (change : Change) : Program Unit := do
  let _ ← ask (.serve directory authority change)

/-- A frontend starting a daemon writes only while it holds the spawn lock. -/
def frontend (identity : CoreIdentity) (attempts : Nat) (changes : List Change) : Program Unit := do
  let some directory ← openWith identity.stateName true | return
  let .true ← acquireSpawnLockBefore identity.stateName directory attempts | return
  Routine.each (write directory) changes
  let _ ← ask (.unlockSpawn directory)

/-- A daemon may write before it has the authority, and where the authority is refused. -/
def daemon (identity : CoreIdentity) (attempts : Nat) (early refused served : List Change) :
    Program Unit := do
  let some directory ← openWith identity.stateName true | return
  Routine.each (write directory) early
  match ← acquire identity.stateName directory attempts with
  | none => Routine.each (write directory) refused
  | some authority =>
    let _ ← ask (.hold directory authority)
    Routine.each (serve directory authority) served
    let _ ← ask (.unlockAuthority authority)

/-! ## The collection -/

/-- The newest of a time and the times of the children; none where one cannot be read. -/
def newestOf (name : Name) (newest : Time) : List Child → Program (Option Time)
  | [] => return some newest
  | child :: rest => do
    let some modified ← ask (.statChild name child) | return none
    newestOf name (max newest modified) rest

def isIdle (name : Name) (idle now : Time) : Program Bool := do
  let some modified ← ask (.statDirectory name) | return false
  let some children ← ask (.listDirectory name) | return false
  let some newest ← newestOf name modified children | return false
  return decide (newest ≤ now ∧ idle ≤ now - newest)

def retire (identity : CoreIdentity) (name : Name) : Program (Option Name) := do
  let some directory ← openWith identity.stateName false | return none
  let .true ← trySpawnLock identity.stateName directory | return none
  match ← tryAcquire identity.stateName directory with
  | none =>
    let _ ← ask (.unlockSpawn directory)
    return none
  | some authority =>
    let uuid : Name ← ask .newUuid
    let trash : Name := trashPrefix ++ uuid
    let moved : Bool ← ask (.rename name trash)
    let _ ← ask (.unlockAuthority authority)
    let _ ← ask (.unlockSpawn directory)
    return if moved then some trash else none

/-- `remove_dir_all`: what is in the directory, one entry after another, then its name. -/
def removeChildTree (name : Name) (entries : Nat) : Program Bool := do
  match ← ask (.openChild name) with
  | .found directory =>
    Routine.each (fun _ : Nat => do
      let _ ← ask (.strip directory)) (List.range entries)
    let removed : Bool ← ask (.removeDirectory name)
    return removed
  | .failed =>
    let removed : Bool ← ask (.removeDirectory name)
    return removed
  | .notFound => return false

/-- One name of the listing; the answer says whether it is reported as removed. -/
def collectName (own : CoreIdentity) (idle now : Time) (entries : Nat) (name : Name) :
    Program Bool := do
  if IsTrash name then removeChildTree name entries
  else
    let some identity := foreignIdentity name own | return false
    -- Measured before locking: taking the locks may itself create entries.
    let .true ← isIdle name idle now | return false
    let some trash ← retire identity name | return false
    removeChildTree trash entries

def collectNames (own : CoreIdentity) (idle now : Time) (entries : Nat) :
    List Name → Program (List Name)
  | [] => return []
  | name :: rest => do
    let removed ← collectName own idle now entries name
    let others ← collectNames own idle now entries rest
    return if removed then name :: others else others

def collectStaleDaemonStates (own : CoreIdentity) (idle now : Time) (entries : Nat) :
    Program (Option (List Name)) := do
  let some names ← ask .listRoot | return none
  let removed ← collectNames own idle now entries names
  return some removed

/-! ## Roles -/

inductive Role where
  | collector (own : CoreIdentity) (idle now : Time) (entries : Nat)
  | frontend (identity : CoreIdentity) (attempts : Nat) (changes : List Change)
  | daemon (identity : CoreIdentity) (attempts : Nat) (early refused served : List Change)
  /-- Time passes. -/
  | clock (ticks : Nat)

def Role.program : Role → Program Unit
  | .collector own idle now entries => do
    let _ ← collectStaleDaemonStates own idle now entries
  | .frontend identity attempts changes => Collection.frontend identity attempts changes
  | .daemon identity attempts early refused served =>
    Collection.daemon identity attempts early refused served
  | .clock ticks => Routine.each (fun _ : Nat => do
      let _ ← ask .tick) (List.range ticks)

/-- A run over a root that holds nothing, or files and links at some names. -/
def runRoot (others : Name → Bool) (events : List (Event Choice Role)) : Pool Op Answer Role Root :=
  Pool.run stateRoot Role.program
    ⟨{ names := fun name => if others name then some .other else none }, []⟩ events

end Unica.Collection
