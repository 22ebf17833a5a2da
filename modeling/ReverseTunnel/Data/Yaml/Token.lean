import ReverseTunnel.Bytes
import ReverseTunnel.Data.Yaml.Scalar

/-!
Tokens of the YAML format, and the ones that name things: anchors, tags and
directives.

A tag is a handle, which a directive may give a meaning, and a suffix of octets; a
percent sign in it is followed by the hexadecimal digits of an octet, and octets
written that way have to make up a character.
-/

namespace ReverseTunnel.Data.Yaml

/-- How the text of a scalar was written. -/
inductive Style where
  | quoted
  | plain
  | block
  deriving DecidableEq, Repr

/-- What a text is made of. The tokens that begin a block of items or keys, end it, or
announce a key have no signs of their own: indentation stands for them. -/
inductive Token where
  | version (major minor : Nat)
  | handle (name : String) (meaning : Bytes)
  | documentStart
  | documentEnd
  | blockList
  | blockTable
  | blockEnd
  | flowList
  | flowListEnd
  | flowTable
  | flowTableEnd
  | dash
  | comma
  | key
  | value
  | alias (name : String)
  | anchor (name : String)
  | tag (handle : String) (suffix : Bytes)
  | scalar (style : Style) (text : String)
  deriving DecidableEq, Repr

/-- The name of an anchor, after its sign. -/
def anchorName : Scan String := do
  let name ← Scan.takeWhile isWord
  guard !name.isEmpty
  let next ← Scan.rest
  guard (atGap next ||
    next.head?.any ['?', ':', ',', ']', '\x7d', '%', '@', '\x60'].contains)
  return String.ofList name

/-- A character of a tag besides those of a word; between angle brackets there are
more of them. -/
def isTagMark (verbatim : Bool) (c : Char) : Bool :=
  [';', '/', '?', ':', '@', '&', '=', '+', '$', '.', '%', '!', '~', '*', '\'', '(',
    ')'].contains c || (verbatim && [',', '[', ']'].contains c)

/-- How many octets a character has that begins with one, if it is one that begins a
character. -/
def octetsFrom (first : UInt8) : Nat :=
  if first < 0x80 then 1
  else if 0xC0 ≤ first && first < 0xE0 then 2
  else if 0xE0 ≤ first && first < 0xF0 then 3
  else if 0xF0 ≤ first && first < 0xF8 then 4
  else 0

/-- An octet written as a percent sign and two digits. -/
def octet : Scan UInt8 := do
  Scan.expect '%'
  return UInt8.ofNat (← Scan.digits (digit? 16) 16 2 0)

/-- A number of octets, none of which begins a character. -/
def octetsAfter : Nat → Scan Bytes
  | 0 => return []
  | n + 1 => do
    let b ← octet
    guard (0x80 ≤ b && b < 0xC0)
    return b :: (← octetsAfter n)

def octets : Scan Bytes := do
  let b ← octet
  guard (octetsFrom b != 0)
  return b :: (← octetsAfter (octetsFrom b - 1))

/-- The octets of a tag, from here to the first character that belongs to none. -/
def tagOctets (verbatim : Bool) : Scan Bytes :=
  Scan.untilDone (fun (done : Bytes) => do
    match ← Scan.peek with
    | none => return .inr done
    | some c =>
      if c == '%' then return .inl (done ++ (← octets))
      else if isWord c || isTagMark verbatim c then
        Scan.skip 1
        return .inl (done ++ [UInt8.ofNat c.toNat])
      else return .inr done) []

/-- A handle: a word between two exclamation marks, or what may turn out to be the
beginning of a tag that has none. -/
def handle : Scan (List Char) := do
  Scan.expect '!'
  let word ← Scan.takeWhile isWord
  return '!' :: word ++ (if ← Scan.accept '!' then ['!'] else [])

/-- Whether the characters are a handle with an exclamation mark at either end. -/
def isFullHandle : List Char → Bool
  | '!' :: rest => rest.getLast? == some '!'
  | _ => false

/-- The octets of plain characters. -/
def octetsOf (cs : List Char) : Bytes := cs.map fun c => UInt8.ofNat c.toNat

/-- A tag. The lone exclamation mark is one without a handle. -/
def tag (inFlow : Bool) : Scan Token := do
  let found ← match ← Scan.rest with
    | _ :: '<' :: _ =>
      Scan.skip 2
      let suffix ← tagOctets true
      guard !suffix.isEmpty
      Scan.expect '>'
      pure (Token.tag "" suffix)
    | _ =>
      let name ← handle
      let rest ← tagOctets false
      if isFullHandle name then
        guard !rest.isEmpty
        pure (.tag (String.ofList name) rest)
      else
        let suffix := octetsOf (name.drop 1) ++ rest
        pure (if suffix.isEmpty then .tag "" (octetsOf ['!']) else .tag "!" suffix)
  let next ← Scan.rest
  guard (atGap next || (inFlow && next.head? == some ','))
  return found

/-- A number in a directive, of at most nine digits. -/
def versionPart : Scan Nat := do
  let digits ← Scan.takeWhile fun c => (digit? 10 c).isSome
  guard (digits.length ≤ 9)
  match natural? 10 digits with
  | some n => return n
  | none => failure

/-- A directive, after its sign: the version of the format, or the meaning of a
handle. -/
def directive : Scan Token := do
  let name ← Scan.takeWhile isWord
  guard (atGap (← Scan.rest))
  Scan.skipWhile isBlank
  let found ←
    if name == "YAML".toList then
      let major ← versionPart
      Scan.expect '.'
      pure (Token.version major (← versionPart))
    else
      guard (name == "TAG".toList)
      let name ← handle
      guard (isFullHandle name || name == ['!'])
      guard ((← Scan.peek).any isBlank)
      Scan.skipWhile isBlank
      let meaning ← tagOctets true
      guard (!meaning.isEmpty && atGap (← Scan.rest))
      pure (.handle (String.ofList name) meaning)
  endOfLine
  return found

end ReverseTunnel.Data.Yaml
