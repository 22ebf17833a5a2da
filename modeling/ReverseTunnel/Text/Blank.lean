/-!
Blank characters and trimming.

A character is blank when it has the Unicode property White_Space. `trim` drops
blanks at both ends and nothing else: its result neither starts nor ends with a
blank, and trimming it again changes nothing.
-/

namespace ReverseTunnel.Text

/-- The property White_Space. -/
def isBlank (c : Char) : Bool :=
  let n := c.toNat
  (0x09 ≤ n && n ≤ 0x0D) || n == 0x20 || n == 0x85 || n == 0xA0 || n == 0x1680 ||
    (0x2000 ≤ n && n ≤ 0x200A) || n == 0x2028 || n == 0x2029 || n == 0x202F ||
    n == 0x205F || n == 0x3000

/-- Without the blanks in front. -/
def trimLeft (cs : List Char) : List Char := cs.dropWhile isBlank

/-- Without the blanks at the end. -/
def trimRight (cs : List Char) : List Char := (cs.reverse.dropWhile isBlank).reverse

/-- Without the blanks at both ends. -/
def trimChars (cs : List Char) : List Char := trimRight (trimLeft cs)

/-- A text without the blanks at both ends. -/
def trim (s : String) : String := String.ofList (trimChars s.toList)

/-- Whether nothing but blanks is there. -/
def isBlankText (s : String) : Bool := (trimChars s.toList).isEmpty

/-- The ASCII letters in lower case, and every other character as it is. -/
def lowerAscii (s : String) : String := String.ofList (s.toList.map Char.toLower)

end ReverseTunnel.Text
