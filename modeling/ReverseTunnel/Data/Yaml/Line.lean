import ReverseTunnel.Data.Cursor

/-!
Lines of a YAML text: which characters are blank, which of them end a line, and what
is left of a gap between two words that runs over line breaks.

A break between two lines counts as a space, and further breaks each as a line feed;
the two separators of lines and paragraphs count as themselves.
-/

namespace ReverseTunnel.Data.Yaml

/-- A character that a text may have at all. -/
def isReadable (c : Char) : Bool :=
  let n := c.toNat
  n == 0x09 || n == 0x0A || n == 0x0D || (0x20 ≤ n && n ≤ 0x7E) || n == 0x85 ||
    (0xA0 ≤ n && n ≤ 0xFFFD) || 0x10000 ≤ n

/-- A blank within a line. -/
def isBlank (c : Char) : Bool := c == ' ' || c == '\t'

/-- A character that ends a line. -/
def isBreak (c : Char) : Bool :=
  c == '\n' || c == '\r' || c.toNat == 0x85 || c.toNat == 0x2028 || c.toNat == 0x2029

/-- A blank or a character that ends a line. -/
def isGap (c : Char) : Bool := isBlank c || isBreak c

/-- Whether the text ends here or goes on with a gap. -/
def atGap : List Char → Bool
  | [] => true
  | c :: _ => isGap c

/-- A character of a name. -/
def isWord (c : Char) : Bool := c.isAlphanum || c == '_' || c == '-'

/-- Takes a line break and gives what it counts as; nothing if there is none. -/
def takeBreak : Scan (List Char) := do
  match ← Scan.rest with
  | '\r' :: '\n' :: _ => modify (Cursor.pastBreak 2); return ['\n']
  | c :: _ =>
    if isBreak c then
      modify (Cursor.pastBreak 1)
      return [if c.toNat == 0x2028 || c.toNat == 0x2029 then c else '\n']
    else return []
  | [] => return []

def skipComment : Scan Unit := do
  if (← Scan.peek) == some '#' then Scan.skipWhile fun c => !isBreak c

/-- Passes over the rest of a line on which nothing but a comment may follow. -/
def endOfLine : Scan Unit := do
  Scan.skipWhile isBlank
  skipComment
  let ended ← Scan.rest
  guard (ended.head?.all isBreak)
  discard takeBreak

/-- Whether a line begins here that marks the start or the end of a document. -/
def atMarker (c : Cursor) : Bool :=
  c.column == 0 &&
    match c.rest with
    | '-' :: '-' :: '-' :: rest => atGap rest
    | '.' :: '.' :: '.' :: rest => atGap rest
    | _ => false

/-- A gap between two words. -/
structure Gap where
  /-- Whether it goes over the end of a line. -/
  broken : Bool := false
  /-- Its blanks, as long as it is on one line. -/
  blanks : List Char := []
  /-- What its first line break counts as. -/
  first : List Char := []
  /-- What its other line breaks count as. -/
  more : List Char := []

/-- What is left of a line break and those after it. -/
def fold (first more : List Char) : List Char :=
  if first == ['\n'] then if more.isEmpty then [' '] else more
  else first ++ more

def Gap.text (g : Gap) : List Char := if g.broken then fold g.first g.more else g.blanks

/-- Takes a gap, or what follows of one. A tab on a new line may not stand before a
column. -/
def takeGap (indent : Nat) (broken : Bool) : Scan Gap :=
  Scan.untilDone (fun (g : Gap) => do
    match ← Scan.peek with
    | none => return .inr g
    | some c =>
      if isBlank c then
        guard (!g.broken || c == ' ' || indent ≤ (← get).column)
        Scan.skip 1
        return .inl (if g.broken then g else { g with blanks := g.blanks ++ [c] })
      else if isBreak c then
        let counted ← takeBreak
        return .inl (if g.broken then { g with more := g.more ++ counted }
          else { broken := true, first := counted })
      else return .inr g) { broken }

end ReverseTunnel.Data.Yaml
