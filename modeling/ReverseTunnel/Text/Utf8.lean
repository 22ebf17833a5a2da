import ReverseTunnel.Bytes

/-!
UTF-8 text in byte strings.

`encode` writes a text and `decode` reads one back, refusing every byte string
that is not well formed; `Fault` says where such a string goes wrong. `lossy`
reads any byte string at all, with a replacement character for each longest
piece that cannot belong to a well-formed text.
-/

namespace ReverseTunnel.Text.Utf8

/-- Where a byte string stops being UTF-8: the number of bytes before the fault,
and how many bytes the faulty piece has; none if the string ends inside a
character. -/
structure Fault where
  index : Nat
  length : Option Nat
  deriving Repr, DecidableEq

/-- What stands at the front of a byte string. -/
inductive Lead where
  | nothing
  | char (c : Char) (rest : Bytes)
  /-- `length` bytes that begin no character together with what follows them. -/
  | malformed (length : Nat) (rest : Bytes)
  /-- The beginning of a character whose other bytes are missing. -/
  | cut
  deriving Repr

/-- A byte that continues a character. -/
def isTail (b : UInt8) : Bool := 0x80 ≤ b && b ≤ 0xBF

/-- The bytes that may come second after the first byte of a character of three
bytes. -/
def secondOfThree (first : UInt8) (b : UInt8) : Bool :=
  if first == 0xE0 then 0xA0 ≤ b && b ≤ 0xBF
  else if first == 0xED then 0x80 ≤ b && b ≤ 0x9F
  else isTail b

/-- The bytes that may come second after the first byte of a character of four
bytes. -/
def secondOfFour (first : UInt8) (b : UInt8) : Bool :=
  if first == 0xF0 then 0x90 ≤ b && b ≤ 0xBF
  else if first == 0xF4 then 0x80 ≤ b && b ≤ 0x8F
  else isTail b

/-- The low six bits of a continuing byte. -/
def payload (b : UInt8) : Nat := b.toNat % 64

/-- Reads what stands in front. -/
def lead : Bytes → Lead
  | [] => .nothing
  | a :: rest =>
    if a < 0x80 then .char (Char.ofNat a.toNat) rest
    else if a < 0xC2 then .malformed 1 rest
    else if a < 0xE0 then
      match rest with
      | [] => .cut
      | b :: rest' =>
        if isTail b then .char (Char.ofNat (a.toNat % 32 * 64 + payload b)) rest'
        else .malformed 1 rest
    else if a < 0xF0 then
      match rest with
      | [] => .cut
      | b :: rest' =>
        if secondOfThree a b then
          match rest' with
          | [] => .cut
          | c :: rest'' =>
            if isTail c then
              .char (Char.ofNat (a.toNat % 16 * 4096 + payload b * 64 + payload c)) rest''
            else .malformed 2 rest'
        else .malformed 1 rest
    else if a < 0xF5 then
      match rest with
      | [] => .cut
      | b :: rest' =>
        if secondOfFour a b then
          match rest' with
          | [] => .cut
          | c :: rest'' =>
            if isTail c then
              match rest'' with
              | [] => .cut
              | d :: rest''' =>
                if isTail d then
                  .char (Char.ofNat (a.toNat % 8 * 262144 + payload b * 4096
                    + payload c * 64 + payload d)) rest'''
                else .malformed 3 rest''
            else .malformed 2 rest'
        else .malformed 1 rest
    else .malformed 1 rest

/-- The bytes that have still to be read after the front. -/
def Lead.rest : Lead → Bytes
  | .nothing | .cut => []
  | .char _ rest | .malformed _ rest => rest

/-- Reading the front of a byte string leaves less of it. -/
theorem length_rest_lead (b : UInt8) (bs : Bytes) :
    (lead (b :: bs)).rest.length < (b :: bs).length := by
  simp only [lead]
  repeat' split
  all_goals
    simp only [Lead.rest, List.length_cons, List.length_nil]
    omega

theorem lead_char_shrinks {bs rest : Bytes} {c : Char} (h : lead bs = .char c rest) :
    rest.length < bs.length := by
  cases bs with
  | nil => simp [lead] at h
  | cons b bs =>
    have := length_rest_lead b bs
    rwa [h] at this

theorem lead_malformed_shrinks {bs rest : Bytes} {n : Nat} (h : lead bs = .malformed n rest) :
    rest.length < bs.length := by
  cases bs with
  | nil => simp [lead] at h
  | cons b bs =>
    have := length_rest_lead b bs
    rwa [h] at this

/-- The first fault at or after the front, `index` bytes having been read before
it; a string without one is faulted at its end. -/
def faultFrom (index : Nat) (bs : Bytes) : Fault :=
  match h : lead bs with
  | .nothing | .cut => ⟨index, none⟩
  | .malformed n _ => ⟨index, some n⟩
  | .char _ rest =>
    have := lead_char_shrinks h
    faultFrom (index + (bs.length - rest.length)) rest
  termination_by bs.length

/-- The first fault of a byte string that is not UTF-8. -/
def fault (bs : Bytes) : Fault := faultFrom 0 bs

def Fault.message (f : Fault) : String :=
  match f.length with
  | some n => s!"invalid utf-8 sequence of {n} bytes from index {f.index}"
  | none => s!"incomplete utf-8 byte sequence from index {f.index}"

def encode (s : String) : Bytes := s.toByteArray.data.toList

/-- The text that a byte string writes, or its first fault. -/
def decode (bs : Bytes) : Except Fault String :=
  match String.fromUTF8? ⟨bs.toArray⟩ with
  | some s => .ok s
  | none => .error (fault bs)

/-- Reading back what was written. -/
theorem decode_encode (s : String) : decode (encode s) = .ok s := by
  have h : (⟨(encode s).toArray⟩ : ByteArray) = s.toByteArray := by simp [encode]
  have hv : s.toByteArray.IsValidUTF8 := s.isValidUTF8
  simp only [decode, String.fromUTF8?, h, hv, dif_pos]
  rfl

/-- Only the written form of a text is read as that text. -/
theorem eq_encode_of_decode {bs : Bytes} {s : String} (h : decode bs = .ok s) : bs = encode s := by
  unfold decode at h
  split at h
  · rename_i t ht
    simp only [Except.ok.injEq] at h
    subst h
    unfold String.fromUTF8? at ht
    split at ht
    · simp only [Option.some.injEq] at ht
      subst ht
      simp [encode, String.fromUTF8]
    · cases ht
  · cases h

/-- The characters of a byte string, with the replacement character for each
piece that is not UTF-8. -/
def lossyChars (bs : Bytes) (acc : List Char) : List Char :=
  match h : lead bs with
  | .nothing => acc.reverse
  | .cut => (Char.ofNat 0xFFFD :: acc).reverse
  | .malformed _ rest =>
    have := lead_malformed_shrinks h
    lossyChars rest (Char.ofNat 0xFFFD :: acc)
  | .char c rest =>
    have := lead_char_shrinks h
    lossyChars rest (c :: acc)
  termination_by bs.length

/-- The text that a byte string stands for, whatever its bytes. -/
def lossy (bs : Bytes) : String := String.ofList (lossyChars bs [])

end ReverseTunnel.Text.Utf8
