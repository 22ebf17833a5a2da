import ReverseTunnel.Bytes
import ReverseTunnel.Text.Utf8

/-!
The fields of a payload.

A number has a fixed width and is written least significant byte first; a byte
string or a text is preceded by its length in eight bytes; a truth value and the
presence of an optional field are one byte, 0 or 1. Each reader takes its field
from the front of a byte string and returns the rest, so that what was written is
read back whatever follows it.
-/

namespace ReverseTunnel.Wire

/-- Why a field cannot be read. -/
inductive FieldError where
  /-- A number, a byte or a byte string goes past the end. -/
  | unexpectedEnd
  /-- A text goes past the end. -/
  | textPastEnd
  /-- A truth value is neither 0 nor 1. -/
  | badBool (found : UInt8)
  /-- The mark of an optional field is neither 0 nor 1. -/
  | badTag (found : UInt8)
  /-- A text is not UTF-8. -/
  | badText (fault : Text.Utf8.Fault)
  deriving DecidableEq, Repr

def FieldError.message : FieldError → String
  | .unexpectedEnd => "io error: unexpected end of file"
  | .textPastEnd => "io error: "
  | .badBool found => s!"invalid u8 while decoding bool, expected 0 or 1, found {found.toNat}"
  | .badTag found => s!"tag for enum is not valid, found {found.toNat}"
  | .badText fault => s!"string is not valid utf8: {fault.message}"

/-- Takes a value from the front of a byte string. -/
abbrev Reader (α : Type) := Bytes → Except FieldError (α × Bytes)

namespace Field

/-- A number of `width` bytes. -/
def readNat (width : Nat) : Reader Nat := fun bs =>
  match Bytes.split? width bs with
  | some (front, rest) => .ok (Bytes.ofLE front, rest)
  | none => .error .unexpectedEnd

def readU16 : Reader UInt16 := fun bs =>
  match readNat 2 bs with
  | .ok (n, rest) => .ok (UInt16.ofNat n, rest)
  | .error e => .error e

def readU32 : Reader UInt32 := fun bs =>
  match readNat 4 bs with
  | .ok (n, rest) => .ok (UInt32.ofNat n, rest)
  | .error e => .error e

def readU64 : Reader UInt64 := fun bs =>
  match readNat 8 bs with
  | .ok (n, rest) => .ok (UInt64.ofNat n, rest)
  | .error e => .error e

def readBool : Reader Bool
  | [] => .error .unexpectedEnd
  | b :: rest =>
    if b = 0 then .ok (false, rest) else if b = 1 then .ok (true, rest) else .error (.badBool b)

def readBytes : Reader Bytes := fun bs =>
  match readNat 8 bs with
  | .error e => .error e
  | .ok (n, rest) =>
    match Bytes.split? n rest with
    | some (front, rest) => .ok (front, rest)
    | none => .error .unexpectedEnd

def readText : Reader String := fun bs =>
  match readNat 8 bs with
  | .error e => .error e
  | .ok (n, rest) =>
    match Bytes.split? n rest with
    | none => .error .textPastEnd
    | some (front, rest) =>
      match Text.Utf8.decode front with
      | .ok s => .ok (s, rest)
      | .error fault => .error (.badText fault)

/-- A field that may be absent. -/
def readOption {α : Type} (read : Reader α) : Reader (Option α)
  | [] => .error .unexpectedEnd
  | b :: rest =>
    if b = 0 then .ok (none, rest)
    else if b = 1 then
      match read rest with
      | .ok (v, rest) => .ok (some v, rest)
      | .error e => .error e
    else .error (.badTag b)

def writeU16 (n : UInt16) : Bytes := Bytes.le 2 n.toNat

def writeU32 (n : UInt32) : Bytes := Bytes.le 4 n.toNat

def writeU64 (n : UInt64) : Bytes := Bytes.le 8 n.toNat

def writeBool (b : Bool) : Bytes := if b then [1] else [0]

def writeBytes (bs : Bytes) : Bytes := Bytes.le 8 bs.length ++ bs

def writeText (s : String) : Bytes := writeBytes (Text.Utf8.encode s)

def writeOption {α : Type} (write : α → Bytes) : Option α → Bytes
  | none => [0]
  | some v => 1 :: write v

end Field

end ReverseTunnel.Wire
