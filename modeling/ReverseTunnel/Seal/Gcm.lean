import ReverseTunnel.Seal.Aes256

/-!
Authenticated encryption: AES-256 in Galois counter mode, with a nonce of twelve
bytes, a tag of sixteen and no associated data.

`Aead` is what the rest of the library knows of it: a way to encrypt and a way to
decrypt. `aes256Gcm_opens` says that decrypting what was encrypted under the same
key and nonce gives the plaintext back.
-/

namespace ReverseTunnel.Seal

/-- A way to encrypt a plaintext under a key and a nonce, and to decrypt what was
encrypted, unless it was tampered with. -/
structure Aead where
  encrypt : (key nonce plain : Bytes) → Bytes
  decrypt? : (key nonce sealed : Bytes) → Option Bytes

/-- Decrypting what was encrypted under the same key and nonce gives the plaintext
back. -/
def Aead.Opens (a : Aead) : Prop :=
  ∀ key nonce plain, a.decrypt? key nonce (a.encrypt key nonce plain) = some plain

/-- Encrypting adds a tag of sixteen bytes. -/
def Aead.AddsTag (a : Aead) : Prop :=
  ∀ key nonce plain, (a.encrypt key nonce plain).length = plain.length + 16

namespace Gcm

open Aes256 (Block)

/-- An element of the field of 2^128 elements; the leading bit of `high` is its
constant term. -/
structure Element where
  high : UInt64
  low : UInt64
  deriving DecidableEq

def Element.shift (v : Element) : Element :=
  let carry : UInt64 := if v.low &&& 1 = 0 then 0 else 0xE100000000000000
  ⟨(v.high >>> 1) ^^^ carry, (v.low >>> 1) ||| (v.high <<< 63)⟩

/-- The element that a block stands for. -/
def Element.ofBlock (x : Block) : Element :=
  ⟨x.c0.toUInt64 <<< 32 ||| x.c1.toUInt64, x.c2.toUInt64 <<< 32 ||| x.c3.toUInt64⟩

/-- The block that an element stands for. -/
def Element.toBlock (v : Element) : Block :=
  ⟨(v.high >>> 32).toUInt32, v.high.toUInt32, (v.low >>> 32).toUInt32, v.low.toUInt32⟩

/-- The bits of a word, most significant first. -/
def bitsOf (w : UInt64) : List Bool :=
  (List.range 64).map fun i => (w >>> UInt64.ofNat (63 - i)) &&& 1 ≠ 0

def Element.times (x y : Element) : Element :=
  ((bitsOf x.high ++ bitsOf x.low).foldl (fun (z, v) bit =>
    (if bit then Element.mk (z.high ^^^ v.high) (z.low ^^^ v.low) else z, v.shift))
    (Element.mk 0 0, y)).1

/-- Byte strings cut into blocks, the last one filled with zeros. -/
def blocks (bs : Bytes) : List Block :=
  match bs with
  | [] => []
  | b :: rest => Block.ofBytes ((b :: rest).take 16) :: blocks (rest.drop 15)
  termination_by bs.length
  decreasing_by simp only [List.length_drop, List.length_cons]; omega

/-- The polynomial hash of a ciphertext under the hash key. -/
def hash (key : Element) (ciphertext : Bytes) : Block :=
  let lengths : Block :=
    let bits := 8 * ciphertext.length
    ⟨0, 0, UInt32.ofNat (bits / 4294967296), UInt32.ofNat bits⟩
  let z := (blocks ciphertext ++ [lengths]).foldl (fun (z : Element) x =>
    let x := Element.ofBlock x
    Element.times ⟨z.high ^^^ x.high, z.low ^^^ x.low⟩ key) (Element.mk 0 0)
  z.toBlock

/-- The counter block of a nonce. -/
def counter (nonce : Bytes) (n : UInt32) : Block :=
  { Block.ofBytes nonce with c3 := n }

/-- `n` blocks of key stream from the given counter on. -/
def keystreamFrom (k : Aes256.Schedule) (nonce : Bytes) : Nat → UInt32 → List Block
  | 0, _ => []
  | n + 1, i => Aes256.encipher k (counter nonce i) :: keystreamFrom k nonce n (i + 1)

/-- Key stream for a text of `n` bytes. -/
def keystream (k : Aes256.Schedule) (nonce : Bytes) (n : Nat) : Bytes :=
  (keystreamFrom k nonce ((n + 15) / 16) 2).flatMap Block.toBytes

/-- A text with the key stream added bit by bit. -/
def mask (k : Aes256.Schedule) (nonce text : Bytes) : Bytes :=
  text.zipWith (· ^^^ ·) (keystream k nonce text.length)

def tag (k : Aes256.Schedule) (nonce ciphertext : Bytes) : Bytes :=
  let key := Element.ofBlock (Aes256.encipher k ⟨0, 0, 0, 0⟩)
  ((hash key ciphertext).xor (Aes256.encipher k (counter nonce 1))).toBytes

/-- The ciphertext and its tag. -/
def encrypt (key nonce plain : Bytes) : Bytes :=
  let k := Aes256.Schedule.ofKey key
  let ciphertext := mask k nonce plain
  ciphertext ++ tag k nonce ciphertext

/-- The plaintext, if the tag is right. -/
def decrypt? (key nonce sealed : Bytes) : Option Bytes :=
  let k := Aes256.Schedule.ofKey key
  if sealed.length < 16 then none
  else
    let ciphertext := sealed.take (sealed.length - 16)
    if sealed.drop (sealed.length - 16) = tag k nonce ciphertext then some (mask k nonce ciphertext)
    else none

theorem length_keystreamFrom (k : Aes256.Schedule) (nonce : Bytes) (n : Nat) (i : UInt32) :
    (keystreamFrom k nonce n i).length = n := by
  induction n generalizing i with
  | zero => rfl
  | succ n ih => simp [keystreamFrom, ih]

theorem length_toBytes (x : Block) : x.toBytes.length = 16 := by
  simp [Block.toBytes]

theorem length_flatMap_toBytes (xs : List Block) :
    (xs.flatMap Block.toBytes).length = 16 * xs.length := by
  induction xs with
  | nil => rfl
  | cons x xs ih =>
    rw [List.flatMap_cons, List.length_append, ih, length_toBytes, List.length_cons]
    omega

theorem le_length_keystream (k : Aes256.Schedule) (nonce : Bytes) (n : Nat) :
    n ≤ (keystream k nonce n).length := by
  rw [keystream, length_flatMap_toBytes, length_keystreamFrom]
  omega

@[simp]
theorem length_mask (k : Aes256.Schedule) (nonce text : Bytes) :
    (mask k nonce text).length = text.length := by
  have := le_length_keystream k nonce text.length
  simp only [mask, List.length_zipWith]
  omega

/-- Adding the same key stream twice changes nothing. -/
theorem zipWith_xor_zipWith_xor (text stream : Bytes) (h : text.length ≤ stream.length) :
    (text.zipWith (· ^^^ ·) stream).zipWith (· ^^^ ·) stream = text := by
  induction text generalizing stream with
  | nil => rfl
  | cons b text ih =>
    cases stream with
    | nil => simp at h
    | cons s stream =>
      have := ih stream (by simpa using h)
      simp only [List.zipWith_cons_cons, this, UInt8.xor_assoc, UInt8.xor_self, UInt8.xor_zero]

theorem mask_mask (k : Aes256.Schedule) (nonce text : Bytes) :
    mask k nonce (mask k nonce text) = text := by
  rw [mask, length_mask]
  exact zipWith_xor_zipWith_xor _ _ (le_length_keystream k nonce text.length)

@[simp]
theorem length_tag (k : Aes256.Schedule) (nonce ciphertext : Bytes) :
    (tag k nonce ciphertext).length = 16 := by simp [tag, length_toBytes]

end Gcm

/-- The cipher in use. -/
def aes256Gcm : Aead := ⟨Gcm.encrypt, Gcm.decrypt?⟩

theorem aes256Gcm_opens : aes256Gcm.Opens := by
  intro key nonce plain
  have hl : (Gcm.encrypt key nonce plain).length = plain.length + 16 := by simp [Gcm.encrypt]
  have hlt : ¬ (plain.length + 16 < 16) := by omega
  have hsub : plain.length + 16 - 16 = plain.length := by omega
  have ht : (Gcm.encrypt key nonce plain).take plain.length =
      Gcm.mask (Aes256.Schedule.ofKey key) nonce plain := by
    simp [Gcm.encrypt]
  have hd : (Gcm.encrypt key nonce plain).drop plain.length =
      Gcm.tag (Aes256.Schedule.ofKey key) nonce
        (Gcm.mask (Aes256.Schedule.ofKey key) nonce plain) := by
    simp [Gcm.encrypt]
  simp only [aes256Gcm, Gcm.decrypt?, hl, if_neg hlt, hsub, ht, hd, if_pos, Gcm.mask_mask]

theorem aes256Gcm_addsTag : aes256Gcm.AddsTag := by
  intro key nonce plain
  simp [aes256Gcm, Gcm.encrypt]

end ReverseTunnel.Seal
