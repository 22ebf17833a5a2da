import ReverseTunnel.Data.Cursor
import ReverseTunnel.Data.Value

/-!
Quoted texts of the TOML format.

A basic text, in double quotes, has escapes; a literal one, in single quotes, has
none. Three quotes open a text of several lines: a line break right after them does
not count, every other one is a single line feed, and up to two quotes may stand
before the closing three.
-/

namespace ReverseTunnel.Data.Toml

/-- A blank within a line. -/
def isBlank (c : Char) : Bool := c == ' ' || c == '\t'

/-- A character that may stand for itself in a comment or a quoted text. -/
def isPrintable (c : Char) : Bool := c == '\t' || (32 ≤ c.toNat && c.toNat != 127)

/-- Whether a line break stands in front. -/
def atBreak : List Char → Bool
  | '\n' :: _ => true
  | '\r' :: '\n' :: _ => true
  | _ => false

/-- Takes a line break if it is there, and says whether it was. -/
def acceptBreak : Scan Bool := do
  match ← Scan.rest with
  | '\n' :: _ => Scan.skip 1; return true
  | '\r' :: '\n' :: _ => Scan.skip 2; return true
  | _ => return false

/-- Passes over blanks and line breaks. -/
def skipBlankLines : Scan Unit :=
  Scan.untilDone (fun () => do
    if ← acceptBreak then return .inl ()
    match ← Scan.peek with
    | some c => if isBlank c then Scan.skip 1; return .inl () else return .inr ()
    | none => return .inr ()) ()

/-- The character of a number of hexadecimal digits. -/
def codePoint (digits : Nat) : Scan Char := do
  let n ← Scan.digits (digit? 16) 16 digits 0
  guard (n.isValidChar)
  return Char.ofNat n

/-- The character that an escape stands for, after the backslash. -/
def escaped : Scan Char := do
  match ← Scan.next with
  | 'b' => return '\x08'
  | 't' => return '\t'
  | 'n' => return '\n'
  | 'f' => return '\x0c'
  | 'r' => return '\r'
  | 'e' => return '\x1b'
  | '"' => return '"'
  | '\\' => return '\\'
  | 'x' => codePoint 2
  | 'u' => codePoint 4
  | 'U' => codePoint 8
  | _ => failure

/-- A backslash at the end of a line: it and all blanks and line breaks up to the next
character stand for nothing. -/
def continued : Scan Unit := do
  Scan.skipWhile isBlank
  guard (← acceptBreak)
  skipBlankLines

/-- The text up to the closing quote. -/
def onOneLine (quote : Char) : Scan String :=
  Scan.untilDone (fun (text : String) => do
    let c ← Scan.next
    if c == quote then return .inr text
    if c == '\\' && quote == '"' then return .inl (text.push (← escaped))
    guard (isPrintable c)
    return .inl (text.push c)) ""

/-- How a run of quotes is read: the ones that belong to the text, and whether the
text ends. -/
def closing (run : Nat) : Nat × Bool :=
  if run < 3 then (run, false) else (min run 5 - 3, true)

/-- The text of several lines up to the closing quotes. -/
def onLines (quote : Char) : Scan String := do
  discard acceptBreak
  Scan.untilDone (fun (text : String) => do
    if ← acceptBreak then return .inl (text.push '\n')
    match ← Scan.rest with
    | [] => failure
    | c :: rest =>
      if c == quote then
        let (kept, ends) := closing ((c :: rest).takeWhile (· == quote)).length
        Scan.skip (if ends then kept + 3 else kept)
        let text := text ++ String.ofList (List.replicate kept quote)
        return if ends then .inr text else .inl text
      else if c == '\\' && quote == '"' then
        Scan.skip 1
        if atBreak rest || rest.head?.any isBlank then
          continued
          return .inl text
        return .inl (text.push (← escaped))
      else
        guard (isPrintable c)
        Scan.skip 1
        return .inl (text.push c)) ""

/-- A quoted text, whichever kind it is. -/
def quoted : Scan String := do
  match ← Scan.rest with
  | '"' :: '"' :: '"' :: _ => Scan.skip 3; onLines '"'
  | '\'' :: '\'' :: '\'' :: _ => Scan.skip 3; onLines '\''
  | '"' :: _ => Scan.skip 1; onOneLine '"'
  | '\'' :: _ => Scan.skip 1; onOneLine '\''
  | _ => failure

end ReverseTunnel.Data.Toml
