import Unica.View.Store
import Mathlib.Algebra.BigOperators.Group.Finset.Basic

/-!
# Runs of the store of view snapshots

What one admission does, once for all its exits: it fails and leaves the state, it issues a
token for a snapshot that is already there, or it appends one. From it, by induction over the
calls, what holds along every run: identities are positions, the key stays, every token that
was issued is read back, and the retained bytes are the sums over records and payloads.
-/

namespace Unica.View

open Lib Call List ViewCursorBinding Subset Except

variable {Node Item Key Digest : Type}
variable {snapshot : ViewCollectionSnapshot Node Item Digest}
  {state : ViewCursorState Node Item Key Digest} {platform : Platform Node Item Key Digest}
  {after : ViewCursorState Node Item Key Digest} {digest : Digest} {expected : ViewCursorQuestion}
  {reserve : Nat → Option Nat} {store : ViewCursorStore}

/-- What the store relies on: decryption inverts encryption, and the digest of the items
tells them apart. -/
structure Platform.Sound (platform : Platform Node Item Key Digest) : Prop where
  decrypt_encrypt : ∀ key plaintext ciphertext, platform.encrypt key plaintext = some ciphertext →
      platform.decrypt key ciphertext = some plaintext
  digest_injective : ∀ items items' digest, platform.itemsDigest items = .ok digest →
    platform.itemsDigest items' = .ok digest → items = items'

/-! ## Tokens -/

theorem issueViewCursor_eq_ok {key : Key}
    {id offset : Nat} {token : List Byte} (h : issueViewCursor platform key id offset = .ok token) :
    offset < 2 ^ 64 ∧ ∃ ciphertext,
      platform.encrypt key (viewCursorPayload id offset) = some ciphertext ∧
        ciphertext.length = viewCursorCiphertextBytes ∧ token = encodeViewCursor ciphertext := by
  simp only [issueViewCursor, bind_eq_ok, refuseIf_eq_ok, exists_const, okOr_eq_ok,
    ok.injEq, not_not] at h
  obtain ⟨hoffset, ciphertext, hencrypt, hlength, rfl⟩ := h
  exact ⟨hoffset, ciphertext, hencrypt, hlength, rfl⟩

theorem viewSnapshotById_eq_ok {id : Nat} : viewSnapshotById state id = .ok snapshot ↔
      1 ≤ id ∧ state.snapshots[id - 1]? = some snapshot := by
  simp only [viewSnapshotById, bind_eq_ok, okOr_eq_ok, checkedSub_eq_some]
  constructor
  · rintro ⟨index, ⟨hid, rfl⟩, hsnapshot⟩
    exact ⟨hid, hsnapshot⟩
  · rintro ⟨hid, hsnapshot⟩
    exact ⟨id - 1, ⟨hid, rfl⟩, hsnapshot⟩

/-! ## What an admission does -/

/-- The index that was reserved, or the present one, is charged within the limit. -/
def Fits (platform : Platform Node Item Key Digest) (store : ViewCursorStore)
    (snapshotBytes capacity : Nat) : Prop :=
  ∃ charge, viewRetainedCharge platform snapshotBytes capacity = .ok charge ∧
    charge ≤ store.maxTotalBytes

theorem reserveIndex_fits {snapshotBytes len : Nat} {capacities : List Nat} {grown : Option Nat}
    (h : reserveIndex platform store.maxTotalBytes reserve snapshotBytes len capacities = .ok grown)
    (hlast : capacities.getLast? = some len) :
    ∃ capacity, grown = some capacity ∧ Fits platform store snapshotBytes capacity := by
  induction capacities with
  | nil => cases hlast
  | cons capacity rest ih =>
    have hrest (hne : capacity ≠ len) : rest.getLast? = some len := by
      cases rest with
      | nil =>
        cases hlast
        exact absurd rfl hne
      | cons next rest => rwa [getLast?_cons_cons] at hlast
    unfold reserveIndex at h
    split at h
    · split at h
      · rename_i hne
        exact ih h (hrest hne)
      · cases h
    · rename_i spare hspare
      simp only [bind_eq_ok] at h
      obtain ⟨charge, hcharge, h⟩ := h
      split at h
      · rename_i hfits
        cases h
        exact ⟨_, rfl, charge, hcharge, hfits⟩
      · split at h
        · cases h
        · rename_i hne
          exact ih h (hrest hne)

theorem growIndex_fits {snapshotBytes len capacity : Nat} {grown : Option Nat}
    (h : growIndex platform store.maxTotalBytes reserve snapshotBytes len capacity = .ok grown) :
    Fits platform store snapshotBytes (grown.getD capacity) := by
  unfold growIndex at h
  split at h
  · obtain ⟨reserved, rfl, hfits⟩ := reserveIndex_fits h rfl
    exact hfits
  · simp only [bind_eq_ok, refuseIf_eq_ok, exists_const, ok.injEq] at h
    obtain ⟨charge, hcharge, hlimit, rfl⟩ := h
    exact ⟨charge, hcharge, Nat.le_of_not_lt hlimit⟩

/-- The payload an admission uses, the bytes it adds and the payloads it adds. -/
inductive PayloadOf (call : Insertion Node Item Key) (digest : Digest) (payloadBytes : Nat)
    (state : ViewCursorState Node Item Key Digest) :
    ViewCollectionPayload Node Item Digest → Nat → Nat → Prop
  | shared {snapshot : ViewCollectionSnapshot Node Item Digest} (hmem : snapshot ∈ state.snapshots)
      (hnode : snapshot.payload.node = call.node) (hdigest : snapshot.payload.digest = digest) :
      PayloadOf call digest payloadBytes state snapshot.payload 0 0
  | fresh : PayloadOf call digest payloadBytes state
      ⟨call.node, call.items, digest, state.payloadCount⟩ payloadBytes 1

theorem PayloadOf.node {call : Insertion Node Item Key}
    {payloadBytes newBytes newCount : Nat} {payload : ViewCollectionPayload Node Item Digest}
    (h : PayloadOf call digest payloadBytes state payload newBytes newCount) :
    payload.node = call.node := by
  cases h with
  | shared hmem hnode hsame => exact hnode
  | fresh => rfl

/-- The state behind an admission that appends a snapshot. -/
structure Appended (platform : Platform Node Item Key Digest) (store : ViewCursorStore)
    (call : Insertion Node Item Key) (recordBytes payloadBytes : Nat)
    (state : ViewCursorState Node Item Key Digest) (token : List Byte)
    (after : ViewCursorState Node Item Key Digest) where
  digest : Digest
  payload : ViewCollectionPayload Node Item Digest
  newBytes : Nat
  newCount : Nat
  key : Key
  digested : platform.itemsDigest call.items.values = .ok digest
  payloadOf : PayloadOf call digest payloadBytes state payload newBytes newCount
  length : state.snapshots.length + 1 < 2 ^ 64
  keyKept : ∀ old, state.key = some old → old = key
  issued : issueViewCursor platform key (state.snapshots.length + 1) call.offset = .ok token
  fits : Fits platform store after.snapshotBytes after.capacity
  keyAfter : after.key = some key
  snapshots : after.snapshots =
    state.snapshots ++ [⟨call.binding, payload, state.snapshots.length + 1⟩]
  snapshotBytes : after.snapshotBytes = state.snapshotBytes + recordBytes + newBytes
  payloadBytes : after.payloadBytes = state.payloadBytes + newBytes
  payloadCount : after.payloadCount = state.payloadCount + newCount

/-- An admission that finds the snapshot in the store. -/
structure Reused (platform : Platform Node Item Key Digest) (call : Insertion Node Item Key)
    (state : ViewCursorState Node Item Key Digest) (token : List Byte) where
  snapshot : ViewCollectionSnapshot Node Item Digest
  key : Key
  mem : snapshot ∈ state.snapshots
  question : snapshot.binding.question = call.binding.question
  node : snapshot.payload.node = call.node
  digested : platform.itemsDigest call.items.values = .ok snapshot.payload.digest
  hasKey : state.key = some key
  issued : issueViewCursor platform key snapshot.id call.offset = .ok token

section Admission

variable [DecidableEq Node] [DecidableEq Digest] {platform : Platform Node Item Key Digest}
  {store : ViewCursorStore} {call : Insertion Node Item Key}
  {state : ViewCursorState Node Item Key Digest}

theorem samePayload_eq_true {node : Node} {items : OwnedItems Item}
    (h : samePayload node digest items snapshot = true) :
    snapshot.payload.node = node ∧ snapshot.payload.digest = digest := by
  simp only [samePayload, Bool.and_eq_true, beq_iff_eq] at h
  exact h.1

omit [DecidableEq Node] [DecidableEq Digest] in
theorem takePayload_ends {payloadBytes : Nat} {shared : Option (ViewCollectionPayload Node Item Digest)}
    (hshared : ∀ payload, shared = some payload →
      PayloadOf call digest payloadBytes state payload 0 0) :
    Ends (takePayload call digest state.payloadCount shared) state
      (fun payload after => after = state ∧ PayloadOf call digest payloadBytes state payload
        (if shared.isNone then payloadBytes else 0) (if shared.isNone then 1 else 0))
      (fun _ after => after = state) := by
  cases shared with
  | some payload => exact ⟨rfl, hshared payload rfl⟩
  | none =>
    refine .bind (.lift (fun _ _ => ?_) fun _ _ => rfl)
    exact ⟨rfl, .fresh⟩

theorem admitSnapshot_ends (recordBytes payloadBytes : Nat) :
    Ends (admitSnapshot platform store call recordBytes payloadBytes) state (fun token after =>
        (after = state ∧ Nonempty (Reused platform call state token)) ∨
          Nonempty (Appended platform store call recordBytes payloadBytes state token after))
      (fun _ after => after = state) := by
  refine .bind (.lift (fun digest hdigest => ?_) fun _ _ => rfl)
  refine .bind (.get ?_)
  split
  · rename_i snapshot hfind
    refine .bind (.lift (fun key hkey => ?_) fun _ _ => rfl)
    refine .lift (fun token htoken => ?_) fun _ _ => rfl
    have hfound := find?_some hfind
    rw [Bool.and_eq_true, same, Bool.and_eq_true] at hfound
    obtain ⟨hnode, hsame⟩ := samePayload_eq_true hfound.2
    left
    refine ⟨rfl, ⟨⟨snapshot, key, mem_of_find?_eq_some hfind, ?_, hnode, ?_, ?_, htoken⟩⟩⟩
    · simpa [hasSameQuestion] using hfound.1.1
    · rw [hsame, hdigest]
    · exact okOr_eq_ok.mp hkey
  · rename_i hnone
    generalize hshared : Option.map (fun snapshot : ViewCollectionSnapshot Node Item Digest =>
      snapshot.payload) _ = shared
    refine .bind (.lift (fun len hlen => ?_) fun _ _ => rfl)
    refine .bind (.lift (fun recordTotal hrecord => ?_) fun _ _ => rfl)
    refine .bind (.lift (fun snapshotBytes hsnapshotBytes => ?_) fun _ _ => rfl)
    refine .bind (.lift (fun totalPayloadBytes hpayloadBytes => ?_) fun _ _ => rfl)
    refine .bind (.lift (fun payloadCount hpayloadCount => ?_) fun _ _ => rfl)
    refine .bind (.lift (fun grown hgrown => ?_) fun _ _ => rfl)
    refine .bind (.lift (fun key hkey => ?_) fun _ _ => rfl)
    refine .bind (.lift (fun token htoken => ?_) fun _ _ => rfl)
    simp only [viewAdd, okOr_eq_ok, checkedAdd_eq_some] at hlen hrecord hsnapshotBytes hpayloadBytes hpayloadCount
    obtain ⟨hlength, rfl⟩ := hlen
    obtain ⟨-, rfl⟩ := hrecord
    obtain ⟨-, rfl⟩ := hsnapshotBytes
    obtain ⟨-, rfl⟩ := hpayloadBytes
    obtain ⟨-, rfl⟩ := hpayloadCount
    have hpayloads : ∀ payload, shared = some payload →
        PayloadOf call digest payloadBytes state payload 0 0 := by
      rintro payload rfl
      obtain ⟨snapshot, hfind, rfl⟩ := Option.map_eq_some_iff.mp hshared
      have hfound := find?_some hfind
      rw [Bool.and_eq_true] at hfound
      obtain ⟨hnode, hsame⟩ := samePayload_eq_true hfound.2
      exact .shared (mem_of_find?_eq_some hfind) hnode hsame
    refine .bind ((takePayload_ends hpayloads).imp ?_ fun _ _ h => h)
    rintro payload after ⟨hafter, hpayload⟩
    rw [hafter]
    refine .bind (.modify (.bind (.modify (.bind (.modify (.bind (.modify (.bind (.modify (.pure ?_))))))))))
    have hkept : ∀ old, state.key = some old → old = key := by
      intro old hold
      rw [okOr_eq_ok, hold] at hkey
      exact Option.some.inj hkey
    exact .inr ⟨⟨digest, payload, _, _, key, hdigest, hpayload, hlength, hkept, htoken,
      growIndex_fits hgrown, rfl, rfl, rfl, rfl, rfl⟩⟩

theorem insertSnapshot_ends : Ends (insertSnapshot platform store call) state
      (fun token after => call.offset < call.items.values.length ∧
        ((after = state ∧ Nonempty (Reused platform call state token)) ∨ ∃ recordBytes payloadBytes,
            snapshotRecordCharge platform call.binding = .ok recordBytes ∧
            platform.payloadCharge call.node call.items = .ok payloadBytes ∧
            Nonempty (Appended platform store call recordBytes payloadBytes state token after)))
      (fun _ after => after = state) := by
  refine .bind (.ensure (fun hoffset => ?_) fun _ => rfl)
  refine .bind (.ensure (fun _ => ?_) fun _ => rfl)
  refine .bind (.lift (fun recordBytes hrecord => ?_) fun _ _ => rfl)
  refine .bind (.lift (fun payloadBytes hpayload => ?_) fun _ _ => rfl)
  refine .bind (.lift (fun _ _ => ?_) fun _ _ => rfl)
  refine (admitSnapshot_ends recordBytes payloadBytes).imp ?_ fun _ _ h => h
  intro token after h
  refine ⟨hoffset, h.imp id fun happended => ?_⟩
  exact ⟨recordBytes, payloadBytes, hrecord, hpayload, happended⟩

end Admission

/-! ## Reading a token -/

/-- A token of the store: the key and the snapshot it was issued with are still there. -/
structure Issued (platform : Platform Node Item Key Digest)
    (state : ViewCursorState Node Item Key Digest)
    (snapshot : ViewCollectionSnapshot Node Item Digest) (offset : Nat) (token : List Byte) :
    Prop where
  indexed : state.snapshots[snapshot.id - 1]? = some snapshot
  positive : 1 ≤ snapshot.id
  bounded : snapshot.id < 2 ^ 64
  inside : offset < snapshot.payload.items.values.length
  token : ∃ key, state.key = some key ∧ issueViewCursor platform key snapshot.id offset = .ok token

section Read

variable {platform : Platform Node Item Key Digest} {store : ViewCursorStore}
  {state : ViewCursorState Node Item Key Digest}
  {snapshot : ViewCollectionSnapshot Node Item Digest} {offset : Nat} {token : List Byte}

/-- A token is read as its snapshot and offset for its question, and is invalid for any other. -/
theorem Issued.read (h : Issued platform state snapshot offset token) (hsound : platform.Sound)
    (expected : ViewCursorQuestion) :
    read platform store token expected state =
      if snapshot.binding.question = expected then (.ok ⟨store.identity, snapshot, offset⟩, state)
      else (.error .invalid, state) := by
  obtain ⟨key, hkey, hissued⟩ := h.token
  obtain ⟨hoffset, ciphertext, hencrypt, hlength, rfl⟩ := issueViewCursor_eq_ok hissued
  have hplain := hsound.decrypt_encrypt _ _ _ hencrypt
  have hsnapshot := viewSnapshotById_eq_ok.mpr ⟨h.positive, h.indexed⟩
  have hinside := h.inside
  unfold read
  rw [decode_encode hlength, lift_ok_bind, get_bind_apply, hkey]
  simp only [okOr, lift_ok_bind, hplain, readPayload_viewCursorPayload h.bounded hoffset,
    hsnapshot, ensure_bind_apply, hinside, true_and]
  rfl

/-- A token stays issued while snapshots are appended and the key is kept. -/
theorem Issued.append
    (h : Issued platform state snapshot offset token) {more : List (ViewCollectionSnapshot Node Item Digest)}
    (hsnapshots : after.snapshots = state.snapshots ++ more)
    (hkey : ∀ key, state.key = some key → after.key = some key) :
    Issued platform after snapshot offset token := by
  obtain ⟨key, hold, hissued⟩ := h.token
  refine ⟨?_, h.positive, h.bounded, h.inside, key, hkey key hold, hissued⟩
  have hindexed := h.indexed
  rw [hsnapshots]
  obtain ⟨hlt, -⟩ := List.getElem?_eq_some_iff.mp hindexed
  rw [List.getElem?_append_left hlt, hindexed]

/-- A read changes nothing, and what is read was issued under the store's key. -/
theorem read_ends :
    Ends (read platform store token expected) state
      (fun _ after => after = state ∧ ∃ ciphertext key plaintext,
        decodeViewCursor token = .ok ciphertext ∧ state.key = some key ∧
        platform.decrypt key ciphertext = some plaintext) (fun _ after => after = state) := by
  refine .bind (.lift (fun ciphertext hciphertext => ?_) fun _ _ => rfl)
  refine .bind (.get ?_)
  refine .bind (.lift (fun key hkey => ?_) fun _ _ => rfl)
  refine .bind (.lift (fun plaintext hplaintext => ?_) fun _ _ => rfl)
  refine .bind (.lift (fun position _ => ?_) fun _ _ => rfl)
  refine .bind (.lift (fun found _ => ?_) fun _ _ => rfl)
  refine .bind (.ensure (fun _ => ?_) fun _ => rfl)
  exact ⟨rfl, ciphertext, key, plaintext, hciphertext, okOr_eq_ok.mp hkey, okOr_eq_ok.mp hplaintext⟩

theorem read_state (token : List Byte) (expected : ViewCursorQuestion)
    (state : ViewCursorState Node Item Key Digest) : (read platform store token expected state).2 = state :=
  (read_ends.imp (fun _ _ h => h.1) fun _ _ h => h).state

end Read

/-! ## Runs -/

/-- A token that a call returned, with what it was returned for. -/
structure Issue (Node Item : Type) where
  token : List Byte
  question : ViewCursorQuestion
  node : Node
  items : List Item
  offset : Nat

/-- The state of a store and every token it has returned. -/
structure World (Node Item Key Digest : Type) where
  state : ViewCursorState Node Item Key Digest := {}
  log : List (Issue Node Item) := []

inductive Operation (Node Item Key Digest : Type) where
  | insertSnapshot (call : Insertion Node Item Key)
  | insertNext (current : StoredViewCursor Node Item Digest) (offset : Nat)
      (currentToken : List Byte)
  | read (token : List Byte) (expected : ViewCursorQuestion)

/-- A call that returns a token records it. -/
def record (outcome : Except ViewCursorError (List Byte) × ViewCursorState Node Item Key Digest)
    (issue : List Byte → Issue Node Item) (world : World Node Item Key Digest) :
    World Node Item Key Digest :=
  match outcome with
  | (.ok token, after) => ⟨after, world.log ++ [issue token]⟩
  | (.error _, after) => ⟨after, world.log⟩

section Runs

variable {world : World Node Item Key Digest} {token : List Byte}
variable [DecidableEq Node] [DecidableEq Item] [DecidableEq Digest]
  (platform : Platform Node Item Key Digest) (store : ViewCursorStore)

def step (world : World Node Item Key Digest) :
    Operation Node Item Key Digest → World Node Item Key Digest
  | .insertSnapshot call =>
    record (insertSnapshot platform store call world.state)
      (fun token => ⟨token, call.binding.question, call.node, call.items.values, call.offset⟩) world
  | .insertNext current offset currentToken =>
    record (insertNext platform store current offset currentToken world.state)
      (fun token => ⟨token, current.snapshot.binding.question, current.snapshot.payload.node,
        current.snapshot.payload.items.values, offset⟩) world
  | .read token expected => ⟨(read platform store token expected world.state).2, world.log⟩

def run (operations : List (Operation Node Item Key Digest)) : World Node Item Key Digest :=
  operations.foldl (step platform store) {}

/-- The bytes of a charge that was made. -/
def chargeOf : Except ViewCursorError Nat → Nat
  | .ok bytes => bytes
  | .error _ => 0

/-- The payloads of the snapshots, each once. -/
def payloads (state : ViewCursorState Node Item Key Digest) :
    Finset (ViewCollectionPayload Node Item Digest) :=
  (state.snapshots.map (·.payload)).toFinset

def recordSum (state : ViewCursorState Node Item Key Digest) : Nat :=
  (state.snapshots.map fun snapshot =>
    chargeOf (snapshotRecordCharge platform snapshot.binding)).sum

def payloadSum (state : ViewCursorState Node Item Key Digest) : Nat :=
  ∑ payload ∈ payloads state, chargeOf (platform.payloadCharge payload.node payload.items)

/-- What holds in every state of a run. -/
structure Inv (world : World Node Item Key Digest) : Prop where
  ids : ∀ index snapshot, world.state.snapshots[index]? = some snapshot → snapshot.id = index + 1
  length : world.state.snapshots.length < 2 ^ 64
  digests : ∀ snapshot ∈ world.state.snapshots,
    platform.itemsDigest snapshot.payload.items.values = .ok snapshot.payload.digest
  allocated : ∀ snapshot ∈ world.state.snapshots,
    snapshot.payload.allocation < world.state.payloadCount
  issues : ∀ issue ∈ world.log, ∃ snapshot,
    Issued platform world.state snapshot issue.offset issue.token ∧
      snapshot.binding.question = issue.question ∧ snapshot.payload.node = issue.node ∧
      snapshot.payload.items.values = issue.items
  payloadBytes : world.state.payloadBytes = payloadSum platform world.state
  snapshotBytes : world.state.snapshotBytes =
    recordSum platform world.state + payloadSum platform world.state
  fits : world.state.snapshots ≠ [] →
    Fits platform store world.state.snapshotBytes world.state.capacity

variable {platform store}

theorem Inv.initial : Inv platform store {} := by
  constructor <;> simp [payloadSum, payloads, recordSum]

/-- A snapshot of the store is found by its identity. -/
theorem Inv.indexed (h : Inv platform store world) (hmem : snapshot ∈ world.state.snapshots) :
    1 ≤ snapshot.id ∧ snapshot.id < 2 ^ 64 ∧
      world.state.snapshots[snapshot.id - 1]? = some snapshot := by
  obtain ⟨index, hlt, hget⟩ := mem_iff_getElem.mp hmem
  have hindex := List.getElem?_eq_some_iff.mpr ⟨hlt, hget⟩
  have hid := h.ids index snapshot hindex
  have hlength := h.length
  refine ⟨by omega, by omega, ?_⟩
  rw [hid, Nat.add_sub_cancel, hindex]

/-- A call that leaves the state and returns a token of the store keeps the invariant. -/
theorem Inv.issue (h : Inv platform store world) {issue : Issue Node Item}
    (hissued : Issued platform world.state snapshot issue.offset issue.token)
    (hquestion : snapshot.binding.question = issue.question) (hnode : snapshot.payload.node = issue.node)
    (hitems : snapshot.payload.items.values = issue.items) :
    Inv platform store ⟨world.state, world.log ++ [issue]⟩ := by
  refine ⟨h.ids, h.length, h.digests, h.allocated, ?_, h.payloadBytes, h.snapshotBytes, h.fits⟩
  intro old hold
  rw [mem_append, mem_singleton] at hold
  obtain hold | rfl := hold
  · exact h.issues old hold
  · exact ⟨snapshot, hissued, hquestion, hnode, hitems⟩

section Append

variable {world : World Node Item Key Digest} {call : Insertion Node Item Key} {digest : Digest}
  {recordBytes payloadBytes newBytes newCount : Nat}
  {payload : ViewCollectionPayload Node Item Digest}
  {after : ViewCursorState Node Item Key Digest} {token : List Byte}

theorem Inv.payloadOf_digest (h : Inv platform store world)
    (hpayload : PayloadOf call digest payloadBytes world.state payload newBytes newCount)
    (hdigest : platform.itemsDigest call.items.values = .ok digest) :
    platform.itemsDigest payload.items.values = .ok payload.digest ∧ payload.digest = digest := by
  cases hpayload with
  | shared hmem hnode hsame => exact ⟨h.digests _ hmem, hsame⟩
  | fresh => exact ⟨hdigest, rfl⟩

theorem Inv.payloadOf_allocated (h : Inv platform store world)
    (hpayload : PayloadOf call digest payloadBytes world.state payload newBytes newCount) :
    payload.allocation < world.state.payloadCount + newCount := by
  cases hpayload with
  | shared hmem hnode hsame => exact h.allocated _ hmem
  | fresh => exact Nat.lt_succ_self _

theorem Inv.payloadSum_append (h : Inv platform store world)
    (hpayload : PayloadOf call digest payloadBytes world.state payload newBytes newCount)
    (hcharge : platform.payloadCharge call.node call.items = .ok payloadBytes) (hsnapshot : snapshot.payload = payload)
    (hsnapshots : after.snapshots = world.state.snapshots ++ [snapshot]) :
    payloadSum platform after = payloadSum platform world.state + newBytes := by
  have hpayloads : payloads after = insert snapshot.payload (payloads world.state) := by
    simp [payloads, hsnapshots, toFinset_append]
  unfold payloadSum
  rw [hpayloads, hsnapshot]
  cases hpayload with
  | shared hmem hnode hsame =>
    rw [Finset.insert_eq_of_mem]
    · rfl
    · exact mem_toFinset.mpr (mem_map_of_mem hmem)
  | fresh =>
    -- No snapshot of the store names the new allocation.
    have hfresh : (⟨call.node, call.items, digest, world.state.payloadCount⟩ :
        ViewCollectionPayload Node Item Digest) ∉ payloads world.state := by
      intro hmem
      obtain ⟨old, hold, heq⟩ := mem_map.mp (mem_toFinset.mp hmem)
      have hlt := h.allocated old hold
      rw [heq] at hlt
      exact Nat.lt_irrefl _ hlt
    rw [Finset.sum_insert hfresh, hcharge, chargeOf, Nat.add_comm]

/-- A new snapshot keeps the invariant, and its token is issued. -/
theorem Inv.append (h : Inv platform store world) (hsound : platform.Sound)
    (hrecord : snapshotRecordCharge platform call.binding = .ok recordBytes)
    (hcharge : platform.payloadCharge call.node call.items = .ok payloadBytes)
    (hoffset : call.offset < call.items.values.length)
    (happended : Appended platform store call recordBytes payloadBytes world.state token after) :
    Inv platform store ⟨after, world.log ++
      [⟨token, call.binding.question, call.node, call.items.values, call.offset⟩]⟩ := by
  obtain ⟨hdigest, hsame⟩ := h.payloadOf_digest happended.payloadOf happended.digested
  have hitems : happended.payload.items.values = call.items.values := by
    rw [hsame] at hdigest
    exact hsound.digest_injective _ _ _ hdigest happended.digested
  have hpayloadSum := h.payloadSum_append happended.payloadOf hcharge rfl happended.snapshots
  have hrecordSum : recordSum platform after = recordSum platform world.state + recordBytes := by
    rw [recordSum, happended.snapshots, map_append]
    simp [recordSum, hrecord, chargeOf]
  have hlength : after.snapshots.length = world.state.snapshots.length + 1 := by
    rw [happended.snapshots, length_append, length_singleton]
  have hkept : ∀ key, world.state.key = some key → after.key = some key := by
    intro key hkey
    rw [happended.keyAfter, happended.keyKept key hkey]
  have hnew : after.snapshots[world.state.snapshots.length]? =
      some ⟨call.binding, happended.payload, world.state.snapshots.length + 1⟩ := by
    rw [happended.snapshots, List.getElem?_append_right (Nat.le_refl _), Nat.sub_self]
    rfl
  constructor
  · intro index snapshot hindex
    rw [happended.snapshots] at hindex
    by_cases hlt : index < world.state.snapshots.length
    · rw [List.getElem?_append_left hlt] at hindex
      exact h.ids index snapshot hindex
    · rw [List.getElem?_append_right (Nat.le_of_not_lt hlt), List.getElem?_singleton] at hindex
      split at hindex
      · cases hindex
        show world.state.snapshots.length + 1 = index + 1
        omega
      · cases hindex
  · rw [hlength]
    exact happended.length
  · intro snapshot hsnapshot
    rw [happended.snapshots, mem_append, mem_singleton] at hsnapshot
    obtain hold | rfl := hsnapshot
    · exact h.digests snapshot hold
    · exact hdigest
  · intro snapshot hsnapshot
    rw [happended.snapshots, mem_append, mem_singleton] at hsnapshot
    rw [happended.payloadCount]
    obtain hold | rfl := hsnapshot
    · exact Nat.lt_add_right _ (h.allocated snapshot hold)
    · exact h.payloadOf_allocated happended.payloadOf
  · intro issue hissue
    rw [mem_append, mem_singleton] at hissue
    obtain hold | rfl := hissue
    · obtain ⟨snapshot, hissued, hcontent⟩ := h.issues issue hold
      exact ⟨snapshot, hissued.append happended.snapshots hkept, hcontent⟩
    · refine ⟨⟨call.binding, happended.payload, world.state.snapshots.length + 1⟩, ?_, rfl,
        happended.payloadOf.node, hitems⟩
      refine ⟨hnew, Nat.le_add_left _ _, happended.length, ?_, happended.key, happended.keyAfter,
        happended.issued⟩
      rw [hitems]
      exact hoffset
  · rw [happended.payloadBytes, h.payloadBytes, hpayloadSum]
  · rw [happended.snapshotBytes, h.snapshotBytes, hpayloadSum, hrecordSum]
    omega
  · intro _
    exact happended.fits

end Append

/-! ## What every run keeps -/

theorem Inv.record (h : Inv platform store world)
    {call : Call (ViewCursorState Node Item Key Digest) ViewCursorError (List Byte)}
    {issue : List Byte → Issue Node Item} (hends : Ends call world.state
      (fun token after => Inv platform store ⟨after, world.log ++ [issue token]⟩)
      (fun _ after => after = world.state)) :
    Inv platform store (record (call world.state) issue world) := by
  unfold View.record
  split
  · rename_i token after hcall
    exact hends.ok hcall
  · rename_i error after hcall
    have hsame : after = world.state := hends.error hcall
    rw [hsame]
    exact h

theorem Inv.insertSnapshot (h : Inv platform store world)
    (hsound : platform.Sound) (call : Insertion Node Item Key) :
    Inv platform store (step platform store world (.insertSnapshot call)) := by
  apply h.record
  refine insertSnapshot_ends.imp ?_ fun _ _ hsame => hsame
  rintro token after ⟨hoffset, ⟨hafter, ⟨hreused⟩⟩ | ⟨recordBytes, payloadBytes, hrecord, hcharge,
    ⟨happended⟩⟩⟩
  · rw [hafter]
    have hitems := hsound.digest_injective _ _ _ (h.digests _ hreused.mem) hreused.digested
    obtain ⟨hpositive, hbounded, hindexed⟩ := h.indexed hreused.mem
    refine h.issue ⟨hindexed, hpositive, hbounded, ?_, hreused.key, hreused.hasKey,
      hreused.issued⟩ hreused.question hreused.node hitems
    rw [hitems]
    exact hoffset
  · exact h.append hsound hrecord hcharge hoffset happended

theorem insertNext_ends {current : StoredViewCursor Node Item Digest} {offset : Nat}
    {currentToken : List Byte} :
    Ends (insertNext platform store current offset currentToken) state
      (fun token after => after = state ∧ current.snapshot ∈ state.snapshots ∧
        offset < current.snapshot.payload.items.values.length ∧
        ∃ key, state.key = some key ∧
          issueViewCursor platform key current.snapshot.id offset = .ok token)
      (fun _ after => after = state) := by
  refine .bind (.get ?_)
  refine .bind (.lift (fun snapshot hsnapshot => ?_) fun _ _ => rfl)
  refine .bind (.ensure (fun hsame => ?_) fun _ => rfl)
  refine .bind (.lift (fun key hkey => ?_) fun _ _ => rfl)
  refine .bind (.lift (fun issued _ => ?_) fun _ _ => rfl)
  refine .bind (.ensure (fun _ => ?_) fun _ => rfl)
  refine .lift (fun token htoken => ?_) fun _ _ => rfl
  obtain ⟨⟨-, rfl⟩, hoffset⟩ := hsame
  obtain ⟨-, hindexed⟩ := viewSnapshotById_eq_ok.mp hsnapshot
  exact ⟨rfl, mem_of_getElem? hindexed, hoffset, key, okOr_eq_ok.mp hkey, htoken⟩

theorem Inv.insertNext (h : Inv platform store world)
    (current : StoredViewCursor Node Item Digest) (offset : Nat) (currentToken : List Byte) :
    Inv platform store (step platform store world (.insertNext current offset currentToken)) := by
  apply h.record
  refine insertNext_ends.imp ?_ fun _ _ hsame => hsame
  rintro token after ⟨hafter, hmem, hoffset, key, hkey, hissued⟩
  rw [hafter]
  obtain ⟨hpositive, hbounded, hindexed⟩ := h.indexed hmem
  exact h.issue ⟨hindexed, hpositive, hbounded, hoffset, key, hkey, hissued⟩ rfl rfl rfl

theorem Inv.step (h : Inv platform store world)
    (hsound : platform.Sound) (operation : Operation Node Item Key Digest) :
    Inv platform store (step platform store world operation) := by
  cases operation with
  | insertSnapshot call => exact h.insertSnapshot hsound call
  | insertNext current offset currentToken => exact h.insertNext current offset currentToken
  | read token expected =>
    rw [View.step, read_state]
    exact h

theorem run_append (operations : List (Operation Node Item Key Digest))
    (operation : Operation Node Item Key Digest) :
    run platform store (operations ++ [operation]) =
      step platform store (run platform store operations) operation := by
  simp [run]

theorem inv_run (hsound : platform.Sound) (operations : List (Operation Node Item Key Digest)) :
    Inv platform store (run platform store operations) := by
  induction operations using reverseRecOn with
  | nil => exact .initial
  | append_singleton operations operation ih =>
    rw [run_append]
    exact ih.step hsound operation

theorem log_step (world : World Node Item Key Digest) (operation : Operation Node Item Key Digest) :
    world.log ⊆ (step platform store world operation).log := by
  cases operation with
  | insertSnapshot | insertNext =>
    simp only [step, record]
    split
    · exact subset_append_left _ _
    · exact refl _
  | read token expected => exact refl _

/-- A token that was returned stays in the log of every longer run. -/
theorem log_run (operations more : List (Operation Node Item Key Digest)) :
    (run platform store operations).log ⊆ (run platform store (operations ++ more)).log := by
  induction more using reverseRecOn with
  | nil =>
    rw [append_nil]
    exact refl _
  | append_singleton more operation ih =>
    rw [← append_assoc, run_append]
    exact Subset.trans ih (log_step _ operation)

/-- A ciphertext that a client presents is one it was given, unless it is none under the key. -/
def Unforged (platform : Platform Node Item Key Digest) (world : World Node Item Key Digest)
    (ciphertext : List Byte) : Prop :=
  ∀ key plaintext, world.state.key = some key → platform.decrypt key ciphertext = some plaintext →
    ∃ issue ∈ world.log, decodeViewCursor issue.token = .ok ciphertext

/-- A token in the log is read back for its question and invalid for any other. -/
theorem Inv.read_back (h : Inv platform store world)
    (hsound : platform.Sound) {issue : Issue Node Item} (hissue : issue ∈ world.log) :
    (∃ cursor, read platform store issue.token issue.question world.state =
        (.ok cursor, world.state) ∧
      cursor.snapshot.payload.node = issue.node ∧
      cursor.snapshot.payload.items.values = issue.items ∧ cursor.offset = issue.offset) ∧
    ∀ question, question ≠ issue.question →
      read platform store issue.token question world.state = (.error .invalid, world.state) := by
  obtain ⟨snapshot, hissued, hquestion, hnode, hitems⟩ := h.issues issue hissue
  constructor
  · refine ⟨⟨store.identity, snapshot, issue.offset⟩, ?_, hnode, hitems, rfl⟩
    rw [hissued.read hsound, if_pos hquestion]
  · intro question hne
    rw [hissued.read hsound, if_neg]
    rw [hquestion]
    exact hne.symm

omit [DecidableEq Node] [DecidableEq Item] [DecidableEq Digest] in
/-- A token that is accepted was returned. -/
theorem accepted_token_issued {cursor : StoredViewCursor Node Item Digest}
    (hread : read platform store token expected world.state = (.ok cursor, after))
    (hunforged : ∀ ciphertext, decodeViewCursor token = .ok ciphertext →
      Unforged platform world ciphertext) : ∃ issue ∈ world.log, issue.token = token := by
  obtain ⟨ciphertext, key, plaintext, hciphertext, hkey, hplaintext⟩ := (read_ends.ok hread).2
  obtain ⟨issue, hissue, hsame⟩ := hunforged ciphertext hciphertext key plaintext hkey hplaintext
  refine ⟨issue, hissue, ?_⟩
  rw [encode_decode hsame, encode_decode hciphertext]

/-- Over every run: a token returned once is read back ever after, for its question only; what
is accepted was returned; a failed call and a read change nothing; and the bytes a store
retains are those of its records and distinct payloads, within the limit from the first
snapshot on. -/
theorem continuations_never_cross (hsound : platform.Sound)
    (operations more : List (Operation Node Item Key Digest)) :
    (∀ issue ∈ (run platform store operations).log,
      (∃ cursor, read platform store issue.token issue.question
          (run platform store (operations ++ more)).state =
            (.ok cursor, (run platform store (operations ++ more)).state) ∧
        cursor.snapshot.payload.node = issue.node ∧
        cursor.snapshot.payload.items.values = issue.items ∧ cursor.offset = issue.offset) ∧
      ∀ question, question ≠ issue.question →
        read platform store issue.token question (run platform store (operations ++ more)).state =
          (.error .invalid, (run platform store (operations ++ more)).state)) ∧
    (∀ token expected cursor after,
      read platform store token expected (run platform store operations).state =
        (.ok cursor, after) →
      (∀ ciphertext, decodeViewCursor token = .ok ciphertext →
        Unforged platform (run platform store operations) ciphertext) →
      ∃ issue ∈ (run platform store operations).log, issue.token = token) ∧
    (∀ call error after, insertSnapshot platform store call (run platform store operations).state =
        (.error error, after) → after = (run platform store operations).state) ∧
    (∀ current offset currentToken error after,
      insertNext platform store current offset currentToken
        (run platform store operations).state = (.error error, after) →
      after = (run platform store operations).state) ∧
    (∀ token expected,
      (read platform store token expected (run platform store operations).state).2 =
        (run platform store operations).state) ∧
    ((run platform store operations).state.snapshots ≠ [] →
      ∃ charge, viewRetainedCharge platform (run platform store operations).state.snapshotBytes
        (run platform store operations).state.capacity = .ok charge ∧
          charge ≤ store.maxTotalBytes) ∧
    (run platform store operations).state.payloadBytes =
      payloadSum platform (run platform store operations).state ∧
    (run platform store operations).state.snapshotBytes =
      recordSum platform (run platform store operations).state +
        payloadSum platform (run platform store operations).state := by
  have hinv : Inv platform store (run platform store operations) := inv_run hsound operations
  have hlater : Inv platform store (run platform store (operations ++ more)) :=
    inv_run hsound (operations ++ more)
  refine ⟨fun issue hissue => ?_, fun token expected cursor after hread => ?_,
    fun call error after hcall => ?_, fun current offset currentToken error after hcall => ?_,
    fun token expected => read_state token expected _, hinv.fits, hinv.payloadBytes,
    hinv.snapshotBytes⟩
  · exact hlater.read_back hsound (log_run operations more hissue)
  · exact accepted_token_issued hread
  · exact insertSnapshot_ends.error hcall
  · exact insertNext_ends.error hcall

end Runs

/-! ## A platform -/

/-- A cipher that appends a tag of sixteen zeros and a digest that is the items themselves. -/
def plainPlatform : Platform Nat Nat Unit (List Nat) where
  encrypt _ plaintext := some (plaintext ++ List.replicate 16 ⟨0, by decide⟩)
  decrypt _ ciphertext := some (ciphertext.take (ciphertext.length - 16))
  itemsDigest items := .ok items
  inputJson _ _ items := items.length
  bindingJson _ := 1
  payloadCharge _ items := .ok items.capacity
  wordSize := 8
  storeSize := 8
  snapshotSize := 8
  referenceSize := 8

theorem plainPlatform_sound : plainPlatform.Sound where
  decrypt_encrypt := by
    intro key plaintext ciphertext h
    cases h
    simp [plainPlatform]
  digest_injective := by
    intro items items' digest h h'
    cases h
    cases h'
    rfl

def plainInsertion : Insertion Nat Nat Unit where
  binding := ⟨⟨"a", 1⟩, ⟨"p", 1⟩, ⟨"s", 1⟩, ⟨"i", 1⟩, 1⟩
  node := 7
  items := ⟨[1, 2, 3], 3⟩
  offset := 1
  reserve _ := some 0
  entropy := some ()
  stored := .ok ()

/-- A token outlives an admission whose items could not be stored. -/
theorem plainInsertion_read_back :
    ∃ issue ∈ (run plainPlatform ⟨1000, 0⟩ [.insertSnapshot plainInsertion]).log,
      issue.items = [1, 2, 3] ∧ issue.offset = 1 ∧
      ∃ cursor after, read plainPlatform ⟨1000, 0⟩ issue.token issue.question
          (run plainPlatform ⟨1000, 0⟩ ([.insertSnapshot plainInsertion] ++
            [.insertSnapshot { plainInsertion with
              node := 8, stored := .error .storageUnavailable }])).state = (.ok cursor, after) ∧
        cursor.snapshot.payload.items.values = [1, 2, 3] ∧ cursor.offset = 1 := by
  have hissued : ∃ issue ∈ (run plainPlatform ⟨1000, 0⟩ [.insertSnapshot plainInsertion]).log,
      issue.items = [1, 2, 3] ∧ issue.offset = 1 := by decide +kernel
  obtain ⟨issue, hissue, hitems, hoffset⟩ := hissued
  have hback := (continuations_never_cross plainPlatform_sound [.insertSnapshot plainInsertion]
    [.insertSnapshot { plainInsertion with
      node := 8, stored := .error .storageUnavailable }]).1 issue hissue
  obtain ⟨⟨cursor, hread, _, hvalues, hcursor⟩, _⟩ := hback
  exact ⟨issue, hissue, hitems, hoffset, cursor, _, hread, hvalues.trans hitems,
    hcursor.trans hoffset⟩

/-- An empty store is charged its own fixed size, whatever its limit. -/
theorem empty_store_over_limit : plainPlatform.Sound ∧ ∃ charge,
      viewRetainedCharge plainPlatform (run plainPlatform ⟨0, 0⟩ []).state.snapshotBytes
        (run plainPlatform ⟨0, 0⟩ []).state.capacity = .ok charge ∧
      ¬ charge ≤ (⟨0, 0⟩ : ViewCursorStore).maxTotalBytes :=
  ⟨plainPlatform_sound, 24, by decide +kernel, by decide⟩

end Unica.View
