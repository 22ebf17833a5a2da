/-!
Writing JSON: strings with their quotes, and compact objects and lists of values
that are written already.
-/

namespace ReverseTunnel.Text.Json

def hexDigit (n : Nat) : Char := if n < 10 then Char.ofNat (48 + n) else Char.ofNat (87 + n)

/-- A character inside a string. The quote, the backslash and control characters are
escaped, the latter by name where they have one. -/
def escape (c : Char) : List Char :=
  if c = '"' then ['\\', '"']
  else if c = '\\' then ['\\', '\\']
  else if c = '\n' then ['\\', 'n']
  else if c = '\r' then ['\\', 'r']
  else if c = '\t' then ['\\', 't']
  else if c.toNat = 8 then ['\\', 'b']
  else if c.toNat = 12 then ['\\', 'f']
  else if c.toNat < 32 then
    ['\\', 'u', '0', '0', hexDigit (c.toNat / 16), hexDigit (c.toNat % 16)]
  else [c]

def string (s : String) : String := String.ofList ('"' :: s.toList.flatMap escape ++ ['"'])

def bool (b : Bool) : String := if b then "true" else "false"

def optional : Option String → String
  | some s => string s
  | none => "null"

/-- A list of written values. -/
def list (items : List String) : String := "[" ++ String.intercalate "," items ++ "]"

/-- An object of names and written values. -/
def object (fields : List (String × String)) : String :=
  "\x7b" ++ String.intercalate "," (fields.map fun (k, v) => string k ++ ":" ++ v) ++ "\x7d"

end ReverseTunnel.Text.Json
