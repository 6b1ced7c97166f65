import Unica.View.Token
import Unica.Lib.Call

/-!
# The store of view snapshots

`ViewCursorStore`: an append-only list of snapshots, each with the binding it was issued for
and a payload it may share, and the bytes they retain. A call runs over the state and leaves
it to the next one also when it fails. The cipher, the digest, the JSON sizes and the sizes of
the machine are parameters; so is what the allocator, the entropy source and the storage of
the items answer to a call.
-/

namespace Unica.View

open Lib

/-! ## Values -/

/-- A `String` with the memory it holds. -/
structure OwnedText where
  text : String
  capacity : Nat
  deriving DecidableEq

/-- A `Vec` with the memory it holds. -/
structure OwnedItems (Item : Type) where
  values : List Item
  capacity : Nat
  deriving DecidableEq

structure ViewCursorBinding where
  canonicalAt : OwnedText
  projection : OwnedText
  sourceSetIdentity : OwnedText
  snapshotId : OwnedText
  pageLimit : Nat
  deriving DecidableEq

structure ViewCursorQuestion where
  canonicalAt : String
  projection : String
  sourceSetIdentity : String
  pageLimit : Nat
  deriving DecidableEq

namespace ViewCursorBinding

def question (binding : ViewCursorBinding) : ViewCursorQuestion :=
  ⟨binding.canonicalAt.text, binding.projection.text, binding.sourceSetIdentity.text,
    binding.pageLimit⟩

def hasSameQuestion (binding other : ViewCursorBinding) : Bool := binding.question = other.question

/-- Equality of bindings compares texts, not the memory they hold. -/
def same (binding other : ViewCursorBinding) : Bool :=
  binding.hasSameQuestion other && binding.snapshotId.text == other.snapshotId.text

end ViewCursorBinding

/-- What the store is built on: the cipher, the digest, the sizes of JSON texts and of
records in memory. -/
structure Platform (Node Item Key Digest : Type) where
  encrypt : Key → List Byte → Option (List Byte)
  decrypt : Key → List Byte → Option (List Byte)
  itemsDigest : List Item → Except ViewCursorError Digest
  inputJson : ViewCursorBinding → Node → List Item → Nat
  bindingJson : ViewCursorBinding → Nat
  payloadCharge : Node → OwnedItems Item → Except ViewCursorError Nat
  wordSize : Nat
  storeSize : Nat
  snapshotSize : Nat
  referenceSize : Nat

variable {Node Item Key Digest : Type}

/-- The shared data of snapshots; `allocation` tells one allocation from another. -/
structure ViewCollectionPayload (Node Item Digest : Type) where
  node : Node
  items : OwnedItems Item
  digest : Digest
  allocation : Nat
  deriving DecidableEq

structure ViewCollectionSnapshot (Node Item Digest : Type) where
  binding : ViewCursorBinding
  payload : ViewCollectionPayload Node Item Digest
  id : Nat
  deriving DecidableEq

structure ViewCursorState (Node Item Key Digest : Type) where
  key : Option Key := none
  snapshots : List (ViewCollectionSnapshot Node Item Digest) := []
  capacity : Nat := 0
  snapshotBytes : Nat := 0
  payloadBytes : Nat := 0
  payloadCount : Nat := 0

/-- A snapshot a reader holds, with the store it was read from. -/
structure StoredViewCursor (Node Item Digest : Type) where
  owner : Nat
  snapshot : ViewCollectionSnapshot Node Item Digest
  offset : Nat
  deriving DecidableEq

/-- The configuration of one store; `identity` tells stores apart. -/
structure ViewCursorStore where
  maxTotalBytes : Nat
  identity : Nat

/-! ## Charges -/

def viewAdd (left right : Nat) : Except ViewCursorError Nat :=
  okOr .offsetNotRepresentable (checkedAdd (2 ^ 64) left right)

def viewMul (left right : Nat) : Except ViewCursorError Nat :=
  if left * right < 2 ^ 64 then .ok (left * right) else .error .offsetNotRepresentable

def viewRetainedCharge (platform : Platform Node Item Key Digest)
    (snapshotBytes indexCapacity : Nat) : Except ViewCursorError Nat := do
  let owner ← viewAdd platform.storeSize (2 * platform.wordSize)
  let records ← viewAdd owner snapshotBytes
  let index ← viewMul indexCapacity platform.referenceSize
  viewAdd records index

def snapshotRecordCharge (platform : Platform Node Item Key Digest)
    (binding : ViewCursorBinding) : Except ViewCursorError Nat := do
  let jsonBytes := platform.bindingJson binding
  let heap := platform.snapshotSize
  let heap ← viewAdd heap binding.canonicalAt.capacity
  let heap ← viewAdd heap binding.projection.capacity
  let heap ← viewAdd heap binding.sourceSetIdentity.capacity
  let heap ← viewAdd heap binding.snapshotId.capacity
  viewAdd (max jsonBytes heap) (2 * platform.wordSize)

/-! ## Tokens -/

def issueViewCursor (platform : Platform Node Item Key Digest) (key : Key) (id offset : Nat) :
    Except ViewCursorError (List Byte) := do
  refuseIf (¬ offset < 2 ^ 64) .offsetNotRepresentable
  let ciphertext ← okOr .tokenUnavailable (platform.encrypt key (viewCursorPayload id offset))
  refuseIf (ciphertext.length ≠ viewCursorCiphertextBytes) .tokenUnavailable
  .ok (encodeViewCursor ciphertext)

def viewSnapshotById (state : ViewCursorState Node Item Key Digest) (id : Nat) :
    Except ViewCursorError (ViewCollectionSnapshot Node Item Digest) := do
  let index ← okOr .invalid (checkedSub id 1)
  okOr .invalid state.snapshots[index]?

/-! ## Admission -/

/-- One call of `insert_snapshot`: its arguments, and what its surroundings answer to it. A
reservation is answered by the spare room it comes with. -/
structure Insertion (Node Item Key : Type) where
  binding : ViewCursorBinding
  node : Node
  items : OwnedItems Item
  offset : Nat
  reserve : Nat → Option Nat
  entropy : Option Key
  stored : Except ViewCursorError Unit

/-- Reserve the first of the capacities that is available and fits; the exact one is last. -/
def reserveIndex (platform : Platform Node Item Key Digest) (maxTotalBytes : Nat)
    (reserve : Nat → Option Nat) (snapshotBytes len : Nat) :
    List Nat → Except ViewCursorError (Option Nat)
  | [] => .ok none
  | capacity :: rest =>
    match reserve capacity with
    | none =>
      if capacity ≠ len then reserveIndex platform maxTotalBytes reserve snapshotBytes len rest
      else .error .allocationUnavailable
    | some spare => do
      let charge ← viewRetainedCharge platform snapshotBytes (capacity + spare)
      if charge ≤ maxTotalBytes then .ok (some (capacity + spare))
      else if capacity = len then .error .capacityExceeded
      else reserveIndex platform maxTotalBytes reserve snapshotBytes len rest

/-- The capacity of a rebuilt index, or none where the present one has room. -/
def growIndex (platform : Platform Node Item Key Digest) (maxTotalBytes : Nat)
    (reserve : Nat → Option Nat) (snapshotBytes len capacity : Nat) :
    Except ViewCursorError (Option Nat) :=
  if len > capacity then
    let doubled := if capacity * 2 < 2 ^ 64 then capacity * 2 else len
    let amortized := max (max doubled len) 4
    reserveIndex platform maxTotalBytes reserve snapshotBytes len [amortized, len]
  else do
    let charge ← viewRetainedCharge platform snapshotBytes capacity
    refuseIf (charge > maxTotalBytes) .capacityExceeded
    .ok none

section Store

variable [DecidableEq Node] [DecidableEq Digest]

def samePayload (node : Node) (digest : Digest) (items : OwnedItems Item)
    (snapshot : ViewCollectionSnapshot Node Item Digest) : Bool :=
  snapshot.payload.node == node && snapshot.payload.digest == digest &&
    snapshot.payload.items.values.length == items.values.length

/-- The shared payload, or a new one once its items are stored. -/
def takePayload (call : Insertion Node Item Key) (digest : Digest) (allocation : Nat) :
    Option (ViewCollectionPayload Node Item Digest) →
      Call (ViewCursorState Node Item Key Digest) ViewCursorError
        (ViewCollectionPayload Node Item Digest)
  | some payload => pure payload
  | none => do
    Call.lift call.stored
    pure ⟨call.node, call.items, digest, allocation⟩

def admitSnapshot (platform : Platform Node Item Key Digest) (store : ViewCursorStore)
    (call : Insertion Node Item Key) (recordBytes payloadBytes : Nat) :
    Call (ViewCursorState Node Item Key Digest) ViewCursorError (List Byte) := do
  let digest ← Call.lift (platform.itemsDigest call.items.values)
  let state ← Call.get
  match state.snapshots.find? (fun snapshot => snapshot.binding.same call.binding &&
      samePayload call.node digest call.items snapshot) with
  | some snapshot =>
    let key ← Call.lift (okOr .ownerUnavailable state.key)
    Call.lift (issueViewCursor platform key snapshot.id call.offset)
  | none =>
    let sharedPayload := (state.snapshots.find? fun snapshot =>
      snapshot.binding.hasSameQuestion call.binding &&
        samePayload call.node digest call.items snapshot).map (·.payload)
    let len ← Call.lift (viewAdd state.snapshots.length 1)
    let newPayloadBytes := if sharedPayload.isNone then payloadBytes else 0
    let snapshotBytes ← Call.lift (viewAdd state.snapshotBytes recordBytes)
    let snapshotBytes ← Call.lift (viewAdd snapshotBytes newPayloadBytes)
    let totalPayloadBytes ← Call.lift (viewAdd state.payloadBytes newPayloadBytes)
    let payloadCount ←
      Call.lift (viewAdd state.payloadCount (if sharedPayload.isNone then 1 else 0))
    let grown ← Call.lift
      (growIndex platform store.maxTotalBytes call.reserve snapshotBytes len state.capacity)
    -- The first admission draws a key, which is installed with the snapshot.
    let key ← Call.lift (okOr .entropyUnavailable (state.key.or call.entropy))
    let token ← Call.lift (issueViewCursor platform key len call.offset)
    let payload ← takePayload call digest state.payloadCount sharedPayload
    Call.modify fun s => { s with
      snapshots := s.snapshots ++ [⟨call.binding, payload, len⟩]
      capacity := grown.getD s.capacity }
    Call.modify fun s => { s with snapshotBytes := snapshotBytes }
    Call.modify fun s => { s with payloadBytes := totalPayloadBytes }
    Call.modify fun s => { s with payloadCount := payloadCount }
    Call.modify fun s => { s with key := some key }
    pure token

def insertSnapshot (platform : Platform Node Item Key Digest) (store : ViewCursorStore)
    (call : Insertion Node Item Key) :
    Call (ViewCursorState Node Item Key Digest) ViewCursorError (List Byte) := do
  Call.ensure (call.offset < call.items.values.length) .invalid
  Call.ensure (platform.inputJson call.binding call.node call.items.values ≤ store.maxTotalBytes)
    .capacityExceeded
  let record ← Call.lift (snapshotRecordCharge platform call.binding)
  let payload ← Call.lift (platform.payloadCharge call.node call.items)
  let _ ← Call.lift (viewAdd record payload)
  admitSnapshot platform store call record payload

/-! ## Continuations -/

variable [DecidableEq Item]

def insertNext (platform : Platform Node Item Key Digest) (store : ViewCursorStore)
    (current : StoredViewCursor Node Item Digest) (offset : Nat) (currentToken : List Byte) :
    Call (ViewCursorState Node Item Key Digest) ViewCursorError (List Byte) := do
  let state ← Call.get
  let snapshot ← Call.lift (viewSnapshotById state current.snapshot.id)
  -- Two references of one store are the same exactly where the snapshots are.
  Call.ensure ((current.owner = store.identity ∧ snapshot = current.snapshot) ∧
    offset < snapshot.payload.items.values.length) .invalid
  let key ← Call.lift (okOr .invalid state.key)
  let issued ← Call.lift (issueViewCursor platform key snapshot.id current.offset)
  Call.ensure (issued = currentToken) .invalid
  Call.lift (issueViewCursor platform key snapshot.id offset)

end Store

def read (platform : Platform Node Item Key Digest) (store : ViewCursorStore)
    (token : List Byte) (expected : ViewCursorQuestion) :
    Call (ViewCursorState Node Item Key Digest) ViewCursorError
      (StoredViewCursor Node Item Digest) := do
  let ciphertext ← Call.lift (decodeViewCursor token)
  let state ← Call.get
  let key ← Call.lift (okOr .invalid state.key)
  let plaintext ← Call.lift (okOr .invalid (platform.decrypt key ciphertext))
  let (id, offset) ← Call.lift (readPayload plaintext)
  let snapshot ← Call.lift (viewSnapshotById state id)
  Call.ensure (offset < snapshot.payload.items.values.length ∧
    snapshot.binding.question = expected) .invalid
  pure ⟨store.identity, snapshot, offset⟩

end Unica.View
