import Unica.Lib.Checked
import Mathlib.Data.List.Basic

/-!
# Tokens of view continuations

`result_store.rs`: a token is the text `vc2.` and the lower-case hex form of a ciphertext of a
fixed length; the plaintext behind it is a version byte and two numbers, the identity of a
snapshot and an offset. Text and bytes correspond one to one. The cipher is a parameter.
-/

namespace Unica.View

open Lib List

abbrev Byte := Fin 256

inductive ViewCursorError where
  | invalid | capacityExceeded | ownerUnavailable | entropyUnavailable | tokenUnavailable
  | offsetNotRepresentable | allocationUnavailable | storageUnavailable
  deriving DecidableEq

def viewCursorPayloadBytes : Nat := 17

def viewCursorCiphertextBytes : Nat := viewCursorPayloadBytes + 16

def viewCursorTokenBytes : Nat := 4 + 2 * viewCursorCiphertextBytes

/-! ## The text of a token -/

/-- The letters `vc2.`. -/
def viewCursorTag : List Byte := [118, 99, 50, 46]

/-- `0` to `9` and `a` to `f`. -/
def hexDigit (n : Fin 16) : Byte :=
  ⟨if n.val < 10 then 48 + n.val else 87 + n.val, by split <;> omega⟩

def hexPair (byte : Byte) : List Byte :=
  [hexDigit ⟨byte.val / 16, by omega⟩, hexDigit ⟨byte.val % 16, by omega⟩]

def encodeViewCursor (ciphertext : List Byte) : List Byte :=
  viewCursorTag ++ ciphertext.flatMap hexPair

def nibble (byte : Byte) : Except ViewCursorError (Fin 16) :=
  if h : 48 ≤ byte.val ∧ byte.val ≤ 57 then .ok ⟨byte.val - 48, by omega⟩
  else if h : 97 ≤ byte.val ∧ byte.val ≤ 102 then .ok ⟨byte.val - 87, by omega⟩
  else .error .invalid

def decodePairs : List Byte → Except ViewCursorError (List Byte)
  | high :: low :: rest => do
    let h ← nibble high
    let l ← nibble low
    let bytes ← decodePairs rest
    .ok (⟨h.val * 16 + l.val, by omega⟩ :: bytes)
  | _ => .ok []

def decodeViewCursor (token : List Byte) : Except ViewCursorError (List Byte) :=
  if token.length ≠ viewCursorTokenBytes ∨ token.take 4 ≠ viewCursorTag then .error .invalid
  else decodePairs (token.drop 4)

theorem nibble_hexDigit (n : Fin 16) : nibble (hexDigit n) = .ok n := by
  revert n
  decide

theorem hexDigit_of_nibble {byte : Byte} {n : Fin 16} (h : nibble byte = .ok n) : byte = hexDigit n := by
  unfold nibble at h
  split at h
  · cases h
    apply Fin.ext
    simp only [hexDigit]
    split <;> omega
  · split at h
    · cases h
      apply Fin.ext
      simp only [hexDigit]
      split <;> omega
    · cases h

theorem decodePairs_hexPair (bytes : List Byte) : decodePairs (bytes.flatMap hexPair) = .ok bytes := by
  induction bytes with
  | nil => rfl
  | cons byte rest ih =>
    have hbyte : byte.val / 16 * 16 + byte.val % 16 = byte.val := Nat.div_add_mod' _ _
    rw [flatMap_cons, hexPair, cons_append, cons_append, nil_append,
      decodePairs, nibble_hexDigit, nibble_hexDigit, ih]
    simp only [bind, Except.bind, hbyte]

theorem hexPair_of_decodePairs {text bytes : List Byte} (h : decodePairs text = .ok bytes)
    (hlength : text.length % 2 = 0) : text = bytes.flatMap hexPair := by
  fun_induction decodePairs text generalizing bytes with
  | case1 high low rest ih =>
    simp only [bind_eq_ok] at h
    obtain ⟨hi, hhigh, lo, hlow, tail, htail, hbytes⟩ := h
    cases hbytes
    have hrest : rest.length % 2 = 0 := by
      simp only [length_cons] at hlength
      omega
    have hdiv : (hi.val * 16 + lo.val) / 16 = hi.val := by
      omega
    have hmod : (hi.val * 16 + lo.val) % 16 = lo.val := by
      omega
    rw [flatMap_cons, ← ih htail hrest, hexDigit_of_nibble hhigh, hexDigit_of_nibble hlow]
    simp [hexPair, hdiv, hmod]
  | case2 text hshort =>
    cases h
    match text, hshort with
    | [], _ => rfl
    | [_], _ => simp at hlength
    | _ :: _ :: _, hshort => exact (hshort _ _ _ rfl).elim

theorem length_flatMap_hexPair (bytes : List Byte) : (bytes.flatMap hexPair).length = 2 * bytes.length := by
  induction bytes with
  | nil => rfl
  | cons byte rest ih =>
    rw [flatMap_cons, length_append]
    simp only [hexPair, length_cons, length_nil]
    omega

/-- A ciphertext is read back from its token. -/
theorem decode_encode {ciphertext : List Byte} (h : ciphertext.length = viewCursorCiphertextBytes) :
    decodeViewCursor (encodeViewCursor ciphertext) = .ok ciphertext := by
  have hlength : (encodeViewCursor ciphertext).length = viewCursorTokenBytes := by
    rw [encodeViewCursor, length_append, length_flatMap_hexPair, h]
    rfl
  have htag : (encodeViewCursor ciphertext).take 4 = viewCursorTag := rfl
  have hrest : (encodeViewCursor ciphertext).drop 4 = ciphertext.flatMap hexPair := rfl
  rw [decodeViewCursor, if_neg (by simp [hlength, htag]), hrest, decodePairs_hexPair]

/-- A ciphertext has one token. -/
theorem encode_decode {token ciphertext : List Byte} (h : decodeViewCursor token = .ok ciphertext) :
    token = encodeViewCursor ciphertext := by
  unfold decodeViewCursor at h
  split at h
  · cases h
  · rename_i hshape
    rw [not_or, not_not, not_not] at hshape
    have hlength : (token.drop 4).length % 2 = 0 := by
      rw [length_drop, hshape.1]
      rfl
    rw [encodeViewCursor, ← hexPair_of_decodePairs h hlength, ← hshape.2, take_append_drop]

/-! ## The plaintext -/

/-- `u64::to_be_bytes`. -/
def beBytes (n : Nat) : List Byte :=
  [Fin.ofNat 256 (n / 256 ^ 7), Fin.ofNat 256 (n / 256 ^ 6), Fin.ofNat 256 (n / 256 ^ 5),
    Fin.ofNat 256 (n / 256 ^ 4), Fin.ofNat 256 (n / 256 ^ 3), Fin.ofNat 256 (n / 256 ^ 2),
    Fin.ofNat 256 (n / 256), Fin.ofNat 256 n]

/-- `u64::from_be_bytes`. -/
def fromBeBytes (bytes : List Byte) : Nat := bytes.foldl (fun n byte => n * 256 + byte.val) 0

theorem fromBeBytes_beBytes {n : Nat} (h : n < 2 ^ 64) : fromBeBytes (beBytes n) = n := by
  simp only [fromBeBytes, beBytes, foldl_cons, foldl_nil, Fin.ofNat, Nat.reducePow]
  omega

def viewCursorPayload (id offset : Nat) : List Byte := 1 :: (beBytes id ++ beBytes offset)

/-- The snapshot and the offset a plaintext of the right form names. -/
def readPayload (plaintext : List Byte) : Except ViewCursorError (Nat × Nat) :=
  if plaintext.length ≠ viewCursorPayloadBytes ∨ plaintext.head? ≠ some 1 then .error .invalid
  else .ok (fromBeBytes ((plaintext.drop 1).take 8), fromBeBytes ((plaintext.drop 9).take 8))

theorem readPayload_viewCursorPayload {id offset : Nat} (hid : id < 2 ^ 64)
    (hoffset : offset < 2 ^ 64) : readPayload (viewCursorPayload id offset) = .ok (id, offset) := by
  have hlast : ((viewCursorPayload id offset).drop 9).take 8 = beBytes offset := rfl
  have hid' : ((viewCursorPayload id offset).drop 1).take 8 = beBytes id := rfl
  rw [readPayload, if_neg (by simp [viewCursorPayload, beBytes, viewCursorPayloadBytes]), hid',
    hlast, fromBeBytes_beBytes hid, fromBeBytes_beBytes hoffset]

end Unica.View
