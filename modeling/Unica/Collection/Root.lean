import Unica.Lib.Interleaved
import Mathlib.Data.List.AList

/-!
# The state root of the daemons

The directory that daemons, frontends and collectors of all builds share, with the calls they
make on it. A directory is an object that keeps its identity when it is renamed; the two
ownership locks are held on objects, the directory and its authority child, not on names. This is
the system whose locks do not pin the directory. Every call may be refused. `born`, `writes`,
`writeCount` and `sampledAt` only record what happened.
-/

namespace Unica.Collection

open Lib Function

abbrev Name := List Char

abbrev Time := Nat

/-! ## Names -/

def statePrefix : Name := "daemon-p5-".toList

def trashPrefix : Name := ".trash-daemon-".toList

/-- Sixty-four lower-case hexadecimal letters. -/
structure CoreIdentity where
  text : List Char
  length : text.length = 64
  lowerHex : ∀ c ∈ text, c ∈ "0123456789abcdef".toList

instance : DecidableEq CoreIdentity := fun a b =>
  decidable_of_iff (a.text = b.text) ⟨fun h => by cases a; cases b; cases h; rfl, congrArg _⟩

/-- The letters are tested one after another. -/
instance {p : Char → Prop} [DecidablePred p] (text : Name) : Decidable (∀ c ∈ text, p c) :=
  List.decidableBAll p text

namespace CoreIdentity

def fromStr (value : List Char) : Option CoreIdentity :=
  if h : value.length = 64 ∧ ∀ c ∈ value, c ∈ "0123456789abcdef".toList then
    some ⟨value, h.1, h.2⟩
  else none

def stateName (identity : CoreIdentity) : Name := statePrefix ++ identity.text

end CoreIdentity

def IsTrash (name : Name) : Prop := trashPrefix <+: name

instance (name : Name) : Decidable (IsTrash name) := inferInstanceAs (Decidable (_ <+: _))

/-- The state directory of another build. -/
def foreignIdentity (name : Name) (own : CoreIdentity) : Option CoreIdentity :=
  if statePrefix <+: name then
    (CoreIdentity.fromStr (name.drop statePrefix.length)).filter (· ≠ own)
  else none

theorem stateName_of_foreignIdentity {name : Name} {own identity : CoreIdentity}
    (h : foreignIdentity name own = some identity) : name = identity.stateName ∧ identity ≠ own := by
  unfold foreignIdentity at h
  split at h
  · rename_i hstarts
    obtain ⟨rest, hrest⟩ := hstarts
    obtain ⟨hparsed, hne⟩ := Option.filter_eq_some_iff.mp h
    rw [← hrest] at hparsed
    unfold CoreIdentity.fromStr at hparsed
    split at hparsed
    · cases hparsed
      exact ⟨hrest.symm, by simpa using hne⟩
    · cases hparsed
  · cases h

theorem CoreIdentity.not_trash (identity : CoreIdentity) : ¬ IsTrash identity.stateName := by
  rintro ⟨rest, hrest⟩
  have hhead := congrArg List.head? hrest
  have htrash : (trashPrefix ++ rest).head? = some '.' := rfl
  have hstate : identity.stateName.head? = some 'd' := rfl
  rw [htrash, hstate] at hhead
  exact absurd hhead (by decide)

theorem CoreIdentity.stateName_injective {a b : CoreIdentity} (h : a.stateName = b.stateName) : a = b := by
  have htext : a.text = b.text := List.append_cancel_left h
  cases b
  cases htext
  rfl

/-! ## Objects -/

/-- One change a process of the build made in a directory; `shown` where the time of the
directory or of a direct child tells of it. -/
structure Write where
  number : Nat
  time : Time
  shown : Bool
  deriving DecidableEq

structure Directory where
  born : Name := []
  modified : Time := 0
  children : AList (fun _ : String => Time) := ∅
  /-- The child of the receipt authority, an object of its own, and its time. -/
  authority : Option (Nat × Time) := none
  writes : List Write := []

inductive Entry where
  | directory (id : Nat)
  | other
  deriving DecidableEq

structure Root where
  names : Name → Option Entry
  directories : Nat → Directory := fun _ => {}
  nextDirectory : Nat := 0
  nextAuthority : Nat := 0
  spawnLock : Nat → Option Nat := fun _ => none
  authorityLock : Nat → Option Nat := fun _ => none
  clock : Time := 0
  writeCount : Nat := 0
  /-- The number of writes when a process last began to sample a directory. -/
  sampledAt : Nat → Nat := fun _ => 0

/-- A direct child, as a listing names it. -/
inductive Child where
  | authority
  | other (name : String)
  deriving DecidableEq

inductive Change where
  /-- Create or replace a direct child. -/
  | publish (child : String)
  | unlink (child : String)
  /-- Change a direct child so that its own time tells. -/
  | modify (child : String)
  /-- Change something deeper. -/
  | deep
  deriving DecidableEq

namespace Directory

def childNames (directory : Directory) : List Child :=
  (if directory.authority.isSome then [.authority] else []) ++ directory.children.keys.map .other

def childTime (directory : Directory) : Child → Option Time
  | .authority => directory.authority.map Prod.snd
  | .other name => directory.children.lookup name

def record (directory : Directory) (number : Nat) (clock : Time) (shown : Bool) : Directory :=
  { directory with writes := directory.writes ++ [⟨number, clock, shown⟩] }

def apply (directory : Directory) (number : Nat) (clock : Time) : Change → Directory
  | .publish child => record
      { directory with children := directory.children.insert child clock, modified := clock }
      number clock true
  | .unlink child => record
      { directory with children := directory.children.erase child, modified := clock }
      number clock true
  | .modify child =>
    if child ∈ directory.children then
      record { directory with children := directory.children.insert child clock } number clock true
    else directory
  | .deep => directory.record number clock false

end Directory

/-! ## Calls -/

inductive Opened where
  | found (id : Nat)
  | notFound
  | failed
  deriving DecidableEq

inductive Made where
  | made
  | alreadyExists
  | failed
  deriving DecidableEq

inductive Locked where
  | locked
  | contended
  | failed
  deriving DecidableEq

inductive Op where
  | openChild (name : Name)
  | makeChild (name : Name)
  | verifyOwnerOnly
  | openPath (name : Name)
  | openAuthority (directory : Nat)
  | makeAuthority (directory : Nat)
  | lockSpawn (directory : Nat)
  | unlockSpawn (directory : Nat)
  | lockAuthority (authority : Nat)
  | unlockAuthority (authority : Nat)
  | listRoot
  | statDirectory (name : Name)
  | listDirectory (name : Name)
  | statChild (name : Name) (child : Child)
  | newUuid
  | rename (source target : Name)
  | strip (directory : Nat)
  | removeDirectory (name : Name)
  | write (directory : Nat) (change : Change)
  /-- The attempt of a daemon to acquire the authority over the directory has succeeded. -/
  | hold (directory authority : Nat)
  /-- A write of a daemon that holds the authority over the directory. -/
  | serve (directory authority : Nat) (change : Change)
  | tick

abbrev Answer : Op → Type
  | .openChild _ | .openAuthority _ => Opened
  | .makeChild _ | .makeAuthority _ => Made
  | .lockSpawn _ | .lockAuthority _ => Locked
  | .verifyOwnerOnly | .rename _ _ | .removeDirectory _ => Bool
  | .openPath _ | .statDirectory _ | .statChild _ _ => Option Nat
  | .listRoot => Option (List Name)
  | .listDirectory _ => Option (List Child)
  | .newUuid => Name
  | .unlockSpawn _ | .unlockAuthority _ | .strip _ | .write _ _ | .hold _ _ | .serve _ _ _
  | .tick => Unit

/-- What is not determined by the state: whether a call is refused, what a listing of a changing
root contains, the new identifier, and which child is removed first. -/
structure Choice where
  refused : Bool := false
  listing : List Name := []
  uuid : Name := []
  child : Child := .authority

namespace Root

def setName (root : Root) (name : Name) (entry : Option Entry) : Root :=
  { root with names := update root.names name entry }

def setDirectory (root : Root) (id : Nat) (directory : Directory) : Root :=
  { root with directories := update root.directories id directory }

def directoryAt (root : Root) (name : Name) : Option Nat :=
  match root.names name with
  | some (.directory id) => some id
  | _ => none

def put (root : Root) (id : Nat) (change : Change) : Root :=
  { root.setDirectory id ((root.directories id).apply root.writeCount root.clock change) with
    writeCount := root.writeCount + 1 }

def makeChild (root : Root) (name : Name) : Root :=
  { (root.setName name (some (.directory root.nextDirectory))).setDirectory root.nextDirectory
      { born := name, modified := root.clock } with nextDirectory := root.nextDirectory + 1 }

def makeAuthority (root : Root) (id : Nat) : Root :=
  { root.setDirectory id { root.directories id with
      authority := some (root.nextAuthority, root.clock), modified := root.clock } with
    nextAuthority := root.nextAuthority + 1 }

def stripped (directory : Directory) (clock : Time) : Child → Directory
  | .authority => { directory with authority := none, modified := clock }
  | .other name => { directory with children := directory.children.erase name, modified := clock }

def isEmpty (root : Root) : Entry → Bool
  | .directory id => (root.directories id).childNames.isEmpty
  | .other => true

/-- What a call answers where it is not refused, and the root it leaves. -/
def perform (pid : Nat) (choice : Choice) (root : Root) : (op : Op) → Answer op × Root
  | .openChild name =>
    (match root.names name with
      | some (.directory id) => .found id
      | none => .notFound
      | some .other => .failed, root)
  | .makeChild name =>
    match root.names name with
    | some _ => (.alreadyExists, root)
    | none => (.made, root.makeChild name)
  | .verifyOwnerOnly => (true, root)
  | .openPath name => (root.directoryAt name, root)
  | .openAuthority id =>
    (match (root.directories id).authority with
      | some (authority, _) => .found authority
      | none => .notFound, root)
  | .makeAuthority id =>
    match (root.directories id).authority with
    | some _ => (.alreadyExists, root)
    | none => (.made, root.makeAuthority id)
  | .lockSpawn id =>
    match root.spawnLock id with
    | some _ => (.contended, root)
    | none => (.locked, { root with spawnLock := update root.spawnLock id (some pid) })
  | .unlockSpawn id =>
    ((), if root.spawnLock id = some pid then
        { root with spawnLock := update root.spawnLock id none } else root)
  | .lockAuthority authority =>
    match root.authorityLock authority with
    | some _ => (.contended, root)
    | none => (.locked,
        { root with authorityLock := update root.authorityLock authority (some pid) })
  | .unlockAuthority authority =>
    ((), if root.authorityLock authority = some pid then
        { root with authorityLock := update root.authorityLock authority none } else root)
  | .listRoot => (some choice.listing, root)
  | .statDirectory name =>
    ((root.directoryAt name).map fun id => (root.directories id).modified,
      { root with sampledAt := update root.sampledAt pid root.writeCount })
  | .listDirectory name =>
    ((root.directoryAt name).map fun id => (root.directories id).childNames, root)
  | .statChild name child =>
    ((root.directoryAt name).bind fun id => (root.directories id).childTime child, root)
  | .newUuid => (choice.uuid, root)
  | .rename source target =>
    match root.names source, root.names target with
    | some entry, none => (true, (root.setName source none).setName target (some entry))
    | _, _ => (false, root)
  | .strip id =>
    ((), root.setDirectory id (stripped (root.directories id) root.clock choice.child))
  | .removeDirectory name =>
    match root.names name with
    | some entry => if root.isEmpty entry then (true, root.setName name none) else (false, root)
    | none => (false, root)
  | .write id change => ((), root.put id change)
  | .hold _ _ => ((), root)
  | .serve id _ change => ((), root.put id change)
  | .tick => ((), { root with clock := root.clock + 1 })

/-- The answer of a refused call. -/
def refusal : (op : Op) → Answer op
  | .openChild _ | .openAuthority _ => Opened.failed
  | .makeChild _ | .makeAuthority _ => Made.failed
  | .lockSpawn _ | .lockAuthority _ => Locked.failed
  | .verifyOwnerOnly | .rename _ _ | .removeDirectory _ => false
  | .openPath _ | .statDirectory _ | .statChild _ _ => (none : Option Nat)
  | .listRoot => (none : Option (List Name))
  | .listDirectory _ => (none : Option (List Child))
  | .newUuid => ([] : Name)
  | .unlockSpawn _ | .unlockAuthority _ | .strip _ | .write _ _ | .hold _ _ | .serve _ _ _
  | .tick => ()

/-- A call that cannot fail is never refused. -/
def fallible : Op → Bool
  | .unlockSpawn _ | .unlockAuthority _ | .newUuid | .hold _ _ | .tick => false
  | _ => true

def act (pid : Nat) (op : Op) (choice : Choice) (root : Root) : Answer op × Root :=
  if choice.refused && fallible op then (refusal op, root) else perform pid choice root op

/-- The end of a process releases its locks. -/
def leave (pid : Nat) (root : Root) : Root :=
  { root with
    spawnLock := fun id => if root.spawnLock id = some pid then none else root.spawnLock id
    authorityLock := fun id =>
      if root.authorityLock id = some pid then none else root.authorityLock id }

end Root

def stateRoot : SharedState Op Answer Choice Root := ⟨Root.act, Root.leave⟩

end Unica.Collection
