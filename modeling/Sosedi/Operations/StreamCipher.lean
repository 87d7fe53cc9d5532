/-!
# Authenticated stream ciphers

A cipher masks bytes with a key stream, chunk by chunk, and ends with a tag over the ciphertext.

Proved here:

* `mask_mask`: masking twice gives the bytes back;
* `encrypt_eq`, `decrypt_eq`: how the bytes are cut into chunks makes no difference.
-/

namespace Operations

structure StreamCipher (Key Nonce : Type) where
  keystream : Key → Nonce → Nat → UInt8
  tag : Key → Nonce → List UInt8 → List UInt8
  tagBytes : Nat
  length_tag : ∀ key nonce ciphertext, (tag key nonce ciphertext).length = tagBytes

/-- The bytes from a position of the key stream on. -/
def mask (stream : Nat → UInt8) : Nat → List UInt8 → List UInt8
  | _, [] => []
  | position, byte :: bytes => (byte ^^^ stream position) :: mask stream (position + 1) bytes

variable {stream : Nat → UInt8} {position : Nat}

@[simp] theorem length_mask (bytes : List UInt8) :
    (mask stream position bytes).length = bytes.length := by
  induction bytes generalizing position with
  | nil => rfl
  | cons byte bytes ih => simp [mask, ih]

theorem mask_append (left right : List UInt8) :
    mask stream position (left ++ right) =
      mask stream position left ++ mask stream (position + left.length) right := by
  induction left generalizing position with
  | nil => simp [mask]
  | cons byte left ih =>
    have hposition : position + 1 + left.length = position + (left.length + 1) := by omega
    simp [mask, ih, hposition]

/-- Masking twice gives the bytes back. -/
@[simp] theorem mask_mask (bytes : List UInt8) :
    mask stream position (mask stream position bytes) = bytes := by
  induction bytes generalizing position with
  | nil => rfl
  | cons byte bytes ih => simp [mask, ih, UInt8.xor_assoc]

/-! ## Chunks -/

/-- How much of the key stream a cipher has used, and the ciphertext it has seen. -/
structure CipherState where
  position : Nat
  ciphertext : List UInt8

def CipherState.start : CipherState := ⟨0, []⟩

def encryptChunk (stream : Nat → UInt8) (state : CipherState) (chunk : List UInt8) :
    CipherState × List UInt8 :=
  let output := mask stream state.position chunk
  (⟨state.position + chunk.length, state.ciphertext ++ output⟩, output)

def decryptChunk (stream : Nat → UInt8) (state : CipherState) (chunk : List UInt8) :
    CipherState × List UInt8 :=
  (⟨state.position + chunk.length, state.ciphertext ++ chunk⟩, mask stream state.position chunk)

/-- All chunks in order, with what is written for them. -/
def pipeline (update : CipherState → List UInt8 → CipherState × List UInt8) :
    CipherState → List (List UInt8) → CipherState × List UInt8
  | state, [] => (state, [])
  | state, chunk :: chunks =>
    let next := update state chunk
    let rest := pipeline update next.1 chunks
    (rest.1, next.2 ++ rest.2)

theorem encrypt_eq (state : CipherState) (chunks : List (List UInt8)) :
    pipeline (encryptChunk stream) state chunks =
      (⟨state.position + chunks.flatten.length,
        state.ciphertext ++ mask stream state.position chunks.flatten⟩,
        mask stream state.position chunks.flatten) := by
  induction chunks generalizing state with
  | nil => simp [pipeline, mask]
  | cons chunk chunks ih =>
    simp [pipeline, ih, encryptChunk, mask_append, Nat.add_assoc]

theorem decrypt_eq (state : CipherState) (chunks : List (List UInt8)) :
    pipeline (decryptChunk stream) state chunks =
      (⟨state.position + chunks.flatten.length, state.ciphertext ++ chunks.flatten⟩,
        mask stream state.position chunks.flatten) := by
  induction chunks generalizing state with
  | nil => simp [pipeline, mask]
  | cons chunk chunks ih =>
    simp [pipeline, ih, decryptChunk, mask_append, Nat.add_assoc]

end Operations
