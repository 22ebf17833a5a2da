import ReverseTunnel.Text.Combining

/-!
Texts in quotes, for messages.

A quotation mark, a backslash and the common controls have short escapes; a
character that would not show, or would join the one before it, is written as its
code point in braces; every other character stands for itself.
-/

namespace ReverseTunnel.Text.Quoted

/-- A number in lower-case hexadecimal digits. -/
def hex (n : Nat) : List Char := Nat.toDigits 16 n

/-- One character between quotes. -/
def escape (c : Char) : List Char :=
  match c with
  | '\x00' => ['\\', '0']
  | '\t' => ['\\', 't']
  | '\r' => ['\\', 'r']
  | '\n' => ['\\', 'n']
  | '"' => ['\\', '"']
  | '\\' => ['\\', '\\']
  | c =>
    if isCombining c || isUnprintable c then
      '\\' :: 'u' :: '\x7b' :: hex c.toNat ++ ['\x7d']
    else [c]

def encode (s : String) : String :=
  String.ofList ('"' :: s.toList.flatMap escape ++ ['"'])

/-- A part of a file's name in quotes: in it the apostrophe is escaped, too. -/
def encodeName (s : String) : String :=
  let escapeAll (c : Char) : List Char := if c = '\'' then ['\\', '\''] else escape c
  String.ofList ('"' :: s.toList.flatMap escapeAll ++ ['"'])

end ReverseTunnel.Text.Quoted
