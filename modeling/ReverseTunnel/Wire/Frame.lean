import ReverseTunnel.Bytes
import ReverseTunnel.Wire.Kind

/-!
Frames: how messages are told apart on the control channel.

A frame is its total length in four bytes, the code of its kind in two, both most
significant byte first, and a body; the header counts towards the length, and no
frame is longer than one mebibyte. `decode` takes a frame from the front of what
has arrived so far. It refuses a length as soon as the four bytes of the length
are there and an unknown kind as soon as the header is, and neither refusing nor
asking for more uses anything up.
-/

namespace ReverseTunnel.Wire

/-- A frame of a known kind. -/
structure Frame where
  kind : Kind
  body : Bytes
  deriving DecidableEq, Repr

/-- Why a byte string is not, and will not become, a frame. -/
inductive FrameError where
  /-- The length is over the limit. -/
  | tooLarge (length : Nat)
  /-- The length does not even cover the header. -/
  | tooShort (length : Nat)
  /-- No kind has this code. -/
  | unknownKind (code : Int16)
  deriving DecidableEq, Repr

def FrameError.message : FrameError → String
  | .tooLarge length => s!"frame too large: {length}"
  | .tooShort length => s!"frame length {length} is shorter than the header"
  | .unknownKind code => s!"unknown message type: {code.toInt}"

namespace Frame

/-- The most bytes a frame may have, header included. -/
def maxLength : Nat := 1048576

/-- The bytes in front of the body. -/
def headerLength : Nat := 6

/-- The length that a frame of this body declares. -/
def totalLength (body : Bytes) : Nat := headerLength + body.length

/-- A code in two bytes. -/
def writeCode (code : Int16) : Bytes := Bytes.be 2 code.toUInt16.toNat

/-- The code that two bytes stand for. -/
def readCode (high low : UInt8) : Int16 := (UInt16.ofNat (Bytes.ofBE [high, low])).toInt16

/-- A header and a body, whatever their length and code. -/
def write (code : Int16) (body : Bytes) : Bytes :=
  Bytes.be 4 (totalLength body) ++ writeCode code ++ body

/-- Appends a frame to what is already in the output, or refuses a body that is
too long. A length that does not fit four bytes is reported as the largest that
does. -/
def append (code : Int16) (body : Bytes) (output : Bytes) : Except FrameError Bytes :=
  if maxLength < totalLength body then .error (.tooLarge (min (totalLength body) 4294967295))
  else .ok (output ++ write code body)

/-- Splits a frame into its declared length, code and body without checking
anything; none if the header is not complete. -/
def unpack? : Bytes → Option (Nat × Int16 × Bytes)
  | a :: b :: c :: d :: high :: low :: body =>
    some (Bytes.ofBE [a, b, c, d], readCode high low, body)
  | _ => none

/-- Takes one frame from the front of what has arrived, and returns what follows
it; none if more bytes have to arrive first. -/
def decode : Bytes → Except FrameError (Option (Frame × Bytes))
  | a :: b :: c :: d :: rest =>
    let total := Bytes.ofBE [a, b, c, d]
    -- the length is refused before the rest of the header has arrived
    if maxLength < total then .error (.tooLarge total)
    else if total < headerLength then .error (.tooShort total)
    else
      match rest with
      | high :: low :: rest =>
        -- and an unknown kind before the body has
        match Kind.ofCode? (readCode high low) with
        | none => .error (.unknownKind (readCode high low))
        | some kind =>
          match Bytes.split? (total - headerLength) rest with
          | none => .ok none
          | some (body, rest) => .ok (some (⟨kind, body⟩, rest))
      | _ => .ok none
  | _ => .ok none

/-- What follows a frame is shorter than what it was taken from. -/
theorem decode_shrinks {bs rest : Bytes} {f : Frame} (h : decode bs = .ok (some (f, rest))) :
    rest.length < bs.length := by
  unfold decode at h
  repeat' (first | split at h | (simp only [] at h; split at h))
  all_goals try (simp only [Except.ok.injEq, reduceCtorEq] at h)
  rename_i hs
  have := (Bytes.eq_append_of_split? hs).1
  simp only [Option.some.injEq, Prod.mk.injEq] at h
  rw [← h.2]
  simp only [this, List.length_cons, List.length_append]
  omega

end Frame

end ReverseTunnel.Wire
