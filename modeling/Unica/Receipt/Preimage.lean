import Mathlib.Data.Nat.Digits.Lemmas
import Mathlib.Logic.Equiv.List
import Unica.Link.Record

/-!
# What the digests are taken of

`request_scope_hash`, `receipt_key_digest` and `task_link_digest` feed SHA-256 a label of their
own and then every field behind its length in four bytes. A digest is the number its
hexadecimal text spells.
-/

namespace Unica.Receipt.Preimage

open List Function Nat

def asBytes (text : String) : List UInt8 := text.toByteArray.data.toList

inductive DigestKind where
  | requestScope | receiptKey | taskLink
  deriving DecidableEq

def DigestKind.domain : DigestKind → List UInt8
  | requestScope => asBytes "unica.request-scope.v1\x00"
  | receiptKey => asBytes "unica.receipt-key.v1\x00"
  | taskLink => asBytes "unica.task-link.v1\x00"

/-- `u32::to_be_bytes` -/
def toBeBytes (n : Nat) : List UInt8 :=
  [n / 2 ^ 24, n / 2 ^ 16, n / 2 ^ 8, n].map UInt8.ofNat

/-- The bytes fed so far and one more field; a field whose length is no `u32` is a panic. -/
def updateFramed (digest bytes : List UInt8) : Option (List UInt8) :=
  if bytes.length < 2 ^ 32 then some (digest ++ toBeBytes bytes.length ++ bytes) else none

/-- All the bytes a digest of the kind is taken of. -/
def preimage (kind : DigestKind) (fields : List (List UInt8)) : Option (List UInt8) :=
  fields.foldlM updateFramed kind.domain

/-- Lower-case hexadecimal digits, as many as the width says or the number needs. -/
def hexDigits (width n : Nat) : List Char :=
  (((Nat.digits 16 n).rightpad width 0).map Nat.digitChar).reverse

/-- A hyphen behind each group of digits. -/
def hyphenated : List Nat → List Char → List Char
  | [], digits => digits
  | group :: groups, digits => digits.take group ++ '-' :: hyphenated groups (digits.drop group)

def uuidText (id : Nat) : List UInt8 := asBytes (String.ofList (hyphenated [8, 4, 4, 4] (hexDigits 32 id)))

def sha256Text (digest : Nat) : List UInt8 := asBytes (String.ofList (hexDigits 64 digest))

section Digests

variable (sha256 : List UInt8 → Nat)

inductive RequestScopeHashError where
  | empty | controlCharacter | tooLong

def isControl (c : Char) : Bool := c.toNat < 32 || (127 ≤ c.toNat && c.toNat < 160)

def requestScopeHash (workspaceHint : String) : Except RequestScopeHashError (Option Nat) :=
  if workspaceHint.isEmpty then .error .empty
  else if workspaceHint.toList.any isControl then .error .controlCharacter
  else if 16 * 1024 < workspaceHint.utf8ByteSize then .error .tooLong
  else .ok ((preimage .requestScope [asBytes workspaceHint]).map sha256)

def receiptKeyDigest (key : ReceiptKey) : Option Nat :=
  (preimage .receiptKey [uuidText key.invocationId, uuidText key.reservedTaskId,
    sha256Text key.coreIdentityDigest, asBytes key.tool.wireName,
    sha256Text key.normalizedArgumentsHash, sha256Text key.requestScopeHash]).map sha256

def taskLinkDigest (identity : TaskLinkIdentity) : Option Nat :=
  (preimage .taskLink [sha256Text identity.receiptKeyDigest, uuidText identity.taskId,
    uuidText identity.invocationId, sha256Text identity.workspaceIdentityHash]).map sha256

end Digests

/-! ## Frames -/

theorem toBeBytes_inj {m n : Nat} (hm : m < 2 ^ 32) (hn : n < 2 ^ 32)
    (h : toBeBytes m = toBeBytes n) : m = n := by
  simp only [toBeBytes, map_cons, map_nil, cons.injEq, and_true, ← UInt8.toNat_inj,
    UInt8.toNat_ofNat'] at h
  omega

/-- A field with its length before it. -/
def frame (field : List UInt8) : List UInt8 := toBeBytes field.length ++ field

theorem preimage_eq {kind : DigestKind} {fields : List (List UInt8)} {bytes : List UInt8}
    (h : preimage kind fields = some bytes) :
    bytes = kind.domain ++ fields.flatMap frame ∧ ∀ field ∈ fields, field.length < 2 ^ 32 := by
  unfold preimage at h
  generalize kind.domain = fed at h ⊢
  induction fields generalizing fed with
  | nil =>
    cases h
    simp
  | cons field rest ih =>
    rw [foldlM_cons, Option.bind_eq_bind, Option.bind_eq_some_iff] at h
    obtain ⟨next, hnext, hrest⟩ := h
    obtain ⟨hlength, rfl⟩ := Option.ite_none_right_eq_some.mp hnext |>.imp_right (Option.some.inj · |>.symm)
    obtain ⟨rfl, hlengths⟩ := ih _ hrest
    exact ⟨by simp [frame], forall_mem_cons.mpr ⟨hlength, hlengths⟩⟩

/-- Whatever bytes the fields hold, the lengths tell where each of them ends. -/
theorem frames_inj {fields fields' : List (List UInt8)} (h : ∀ field ∈ fields, field.length < 2 ^ 32)
    (h' : ∀ field ∈ fields', field.length < 2 ^ 32)
    (heq : fields.flatMap frame = fields'.flatMap frame) : fields = fields' := by
  induction fields generalizing fields' with
  | nil =>
    cases fields' with
    | nil => rfl
    | cons field' rest' => simp [frame, toBeBytes] at heq
  | cons field rest ih =>
    cases fields' with
    | nil => simp [frame, toBeBytes] at heq
    | cons field' rest' =>
      rw [forall_mem_cons] at h h'
      simp only [flatMap_cons, frame, append_assoc] at heq
      obtain ⟨hlengths, heq⟩ := append_inj heq rfl
      obtain ⟨hfield, hrest⟩ := append_inj heq (toBeBytes_inj h.1 h'.1 hlengths)
      rw [hfield, ih h.2 h'.2 hrest]

/-- The labels differ within their first nine bytes. -/
theorem domain_take : Injective fun kind : DigestKind => kind.domain.take 9 := by
  intro kind kind'
  cases kind <;> cases kind' <;> decide +kernel

theorem preimage_inj {kind kind' : DigestKind} {fields fields' : List (List UInt8)} {bytes : List UInt8}
    (h : preimage kind fields = some bytes) (h' : preimage kind' fields' = some bytes) :
    kind = kind' ∧ fields = fields' := by
  obtain ⟨rfl, hlengths⟩ := preimage_eq h
  obtain ⟨heq, hlengths'⟩ := preimage_eq h'
  have hlong (kind : DigestKind) : 9 ≤ kind.domain.length := by
    cases kind <;> decide +kernel
  have htake := congrArg (take 9) heq
  rw [take_append_of_le_length (hlong kind), take_append_of_le_length (hlong kind')] at htake
  obtain rfl := domain_take htake
  exact ⟨rfl, frames_inj hlengths hlengths' (append_cancel_left heq)⟩

/-! ## Fields -/

theorem asBytes_injective : Injective asBytes := by
  intro text text' h
  rw [← String.toByteArray_inj]
  exact ByteArray.ext (Array.toList_inj.mp h)

theorem digits_lt {width n d : Nat} (h : d ∈ (digits 16 n).rightpad width 0) : d < 16 := by
  rw [rightpad, mem_append] at h
  rcases h with hdigit | hzero
  · exact digits_lt_base (by decide) hdigit
  · rw [(mem_replicate.mp hzero).2]
    decide

/-- The digits spell the number: zeros before it add nothing. -/
theorem hexDigits_value (width n : Nat) : ofDigits 16 ((hexDigits width n).reverse.map
    fun c => "0123456789abcdef".toList.idxOf c) = n := by
  have hdigit : ∀ d < 16, "0123456789abcdef".toList.idxOf (digitChar d) = d := by decide
  have hdigits : ((digits 16 n).rightpad width 0).map
      (fun d => "0123456789abcdef".toList.idxOf (digitChar d)) = _ :=
    map_congr_left fun d hd => hdigit d (digits_lt hd)
  rw [hexDigits, reverse_reverse, map_map]
  show ofDigits 16 (map (fun d => "0123456789abcdef".toList.idxOf (digitChar d)) _) = n
  rw [hdigits, map_id', rightpad, ofDigits_append_replicate_zero, ofDigits_digits]

theorem hexDigits_plain (width n : Nat) : '-' ∉ hexDigits width n := by
  have hdigit : ∀ d < 16, digitChar d ≠ '-' := by decide
  rw [hexDigits, mem_reverse, mem_map]
  rintro ⟨d, hd, hdash⟩
  exact hdigit d (digits_lt hd) hdash

/-- The hyphens can be taken away again. -/
theorem filter_hyphenated (groups : List Nat) {digits : List Char} (h : '-' ∉ digits) :
    (hyphenated groups digits).filter (· ≠ '-') = digits := by
  have hkeep {part : List Char} (hpart : '-' ∉ part) : part.filter (· ≠ '-') = part := by
    rw [filter_eq_self]
    intro c hc
    simpa using ne_of_mem_of_not_mem hc hpart
  induction groups generalizing digits with
  | nil => exact hkeep h
  | cons group groups ih =>
    rw [hyphenated, filter_append, filter_cons_of_neg (by decide),
      ih fun hmem => h (mem_of_mem_drop hmem), hkeep fun hmem => h (mem_of_mem_take hmem),
      take_append_drop]

theorem sha256Text_injective : Injective sha256Text := by
  intro digest digest' h
  have hdigits := String.ofList_injective (asBytes_injective h)
  rw [← hexDigits_value 64 digest, hdigits, hexDigits_value]

theorem uuidText_injective : Injective uuidText := by
  intro id id' h
  have hdigits := congrArg (filter (· ≠ '-')) (String.ofList_injective (asBytes_injective h))
  rw [filter_hyphenated _ (hexDigits_plain 32 id), filter_hyphenated _ (hexDigits_plain 32 id')] at hdigits
  rw [← hexDigits_value 32 id, hdigits, hexDigits_value]

theorem wireName_injective : Injective V5ToolIdentity.wireName := by
  intro tool tool'
  cases tool <;> cases tool' <;> decide

/-- **Digests are taken of different bytes.** The bytes tell the kind and every field, whatever the
fields hold; so, if SHA-256 is injective, neither two scopes nor two keys nor two links have one
digest. -/
theorem digests_never_collide (sha256 : List UInt8 → Nat) (hsha : Function.Injective sha256) :
    (∀ kind kind' fields fields' bytes, preimage kind fields = some bytes →
      preimage kind' fields' = some bytes → kind = kind' ∧ fields = fields') ∧
    (∀ hint hint' digest, requestScopeHash sha256 hint = .ok (some digest) →
      requestScopeHash sha256 hint' = .ok (some digest) → hint = hint') ∧
    (∀ key key' digest, receiptKeyDigest sha256 key = some digest →
      receiptKeyDigest sha256 key' = some digest → key = key') ∧
    ∀ link link' digest, taskLinkDigest sha256 link = some digest →
      taskLinkDigest sha256 link' = some digest → link = link' := by
  have hfields {kind fields fields' digest} (h : (preimage kind fields).map sha256 = some digest)
      (h' : (preimage kind fields').map sha256 = some digest) : fields = fields' := by
    obtain ⟨bytes, hbytes, hdigest⟩ := Option.map_eq_some_iff.mp h
    obtain ⟨bytes', hbytes', rfl⟩ := Option.map_eq_some_iff.mp h'
    rw [hsha hdigest] at hbytes
    exact (preimage_inj hbytes hbytes').2
  refine ⟨fun _ _ _ _ _ => preimage_inj, ?_, ?_, ?_⟩
  · intro hint hint' digest h h'
    have haccepted {hint : String} (h : requestScopeHash sha256 hint = .ok (some digest)) :
        (preimage .requestScope [asBytes hint]).map sha256 = some digest := by
      unfold requestScopeHash at h
      split_ifs at h
      exact Except.ok.inj h
    exact asBytes_injective (singleton_inj.mp (hfields (haccepted h) (haccepted h')))
  · intro key key' digest h h'
    have heq := hfields h h'
    simp only [cons.injEq, and_true, uuidText_injective.eq_iff, sha256Text_injective.eq_iff,
      asBytes_injective.eq_iff, wireName_injective.eq_iff] at heq
    cases key
    cases key'
    simp_all
  · intro link link' digest h h'
    have heq := hfields h h'
    simp only [cons.injEq, and_true, uuidText_injective.eq_iff, sha256Text_injective.eq_iff] at heq
    cases link
    cases link'
    simp_all

/-- A number that spells all the bytes. -/
def spelled (bytes : List UInt8) : Nat := Encodable.encode (bytes.map UInt8.toNat)

theorem digests_never_collide_spelled : Function.Injective spelled ∧
    requestScopeHash spelled "a" ≠ requestScopeHash spelled "b" := by
  have hspelled : Function.Injective spelled :=
    Encodable.encode_injective.comp (map_injective_iff.mpr fun _ _ => UInt8.toNat_inj.mp)
  obtain ⟨digest, hdigest⟩ : ∃ digest, requestScopeHash spelled "a" = .ok (some digest) := ⟨_, rfl⟩
  refine ⟨hspelled, fun hsame => ?_⟩
  have heq := (digests_never_collide spelled hspelled).2.1 "a" "b" digest hdigest (hsame ▸ hdigest)
  exact absurd heq (by decide)

end Unica.Receipt.Preimage
