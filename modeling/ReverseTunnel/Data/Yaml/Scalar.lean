import ReverseTunnel.Data.Value
import ReverseTunnel.Data.Yaml.Line

/-!
Scalars of the YAML format: in quotes, bare, and as a block of lines.

A scalar's text may run over several lines; what the gaps between its words come to is
`Gap.text`. A block keeps its lines, or joins them as words if it is folded.
-/

namespace ReverseTunnel.Data.Yaml

/-- The character of a number of hexadecimal digits. -/
def codePoint (digits : Nat) : Scan Char := do
  let n ← Scan.digits (digit? 16) 16 digits 0
  guard n.isValidChar
  return Char.ofNat n

/-- The character that an escape stands for, after the backslash. -/
def escaped : Scan Char := do
  match ← Scan.next with
  | '0' => return '\x00'
  | 'a' => return '\x07'
  | 'b' => return '\x08'
  | 't' => return '\t'
  | '\t' => return '\t'
  | 'n' => return '\n'
  | 'v' => return '\x0b'
  | 'f' => return '\x0c'
  | 'r' => return '\r'
  | 'e' => return '\x1b'
  | ' ' => return ' '
  | '"' => return '"'
  | '/' => return '/'
  | '\\' => return '\\'
  | 'N' => return '\u0085'
  | '_' => return '\u00a0'
  | 'L' => return '\u2028'
  | 'P' => return '\u2029'
  | 'x' => codePoint 2
  | 'u' => codePoint 4
  | 'U' => codePoint 8
  | _ => failure

/-- A text with a gap after it. -/
def joined (text : String) (g : Gap) : String := text ++ String.ofList g.text

/-- The text up to the closing quote. A single quote is written twice inside single
quotes; double quotes have escapes, the end of a line among them. -/
def quoted (quote : Char) : Scan String :=
  Scan.untilDone (fun (text : String) => do
    guard !(atMarker (← get))
    match ← Scan.rest with
    | [] => failure
    | c :: rest =>
      if c == quote then
        if quote == '\'' && rest.head? == some '\'' then
          Scan.skip 2
          return .inl (text.push '\'')
        Scan.skip 1
        return .inr text
      else if c == '\\' && quote == '"' then
        Scan.skip 1
        if rest.head?.any isBreak then
          discard takeBreak
          return .inl (joined text (← takeGap 0 true))
        return .inl (text.push (← escaped))
      else if isGap c then return .inl (joined text (← takeGap 0 false))
      else
        Scan.skip 1
        return .inl (text.push c)) ""

/-- A character that separates or closes the items between brackets. -/
def isFlowMark (c : Char) : Bool :=
  c == ',' || c == '[' || c == ']' || c == '\x7b' || c == '\x7d'

/-- The next word of a bare text: up to a gap or a colon before one, and between
brackets up to one of their marks. A colon just before such a mark is refused. -/
def word? (inFlow : Bool) : List Char → Option (List Char)
  | [] => some []
  | c :: rest =>
    if isGap c then some []
    else if inFlow && c == ':' && rest.head?.any (fun d => isFlowMark d || d == '?') then none
    else if c == ':' && atGap rest then some []
    else if inFlow && isFlowMark c then some []
    else (c :: ·) <$> word? inFlow rest

/-- A bare text, and whether it ends behind a line break. Outside brackets its lines
have to be indented. -/
def plain (inFlow : Bool) (indent : Nat) : Scan (String × Bool) :=
  Scan.untilDone (fun ((text, g) : String × Gap) => do
    let ended := atMarker (← get) || (← Scan.peek) == some '#'
    if ended then return .inr (text, g.broken)
    match word? inFlow (← Scan.rest) with
    | none => failure
    | some word =>
      Scan.skip word.length
      let (text, g) :=
        if word.isEmpty then (text, g) else (joined text g ++ String.ofList word, {})
      unless (← Scan.peek).any isGap do return .inr (text, g.broken)
      let g ← takeGap indent false
      if !inFlow && (← get).column < indent then return .inr (text, g.broken)
      return .inl (text, g)) ("", {})

/-- Which line breaks at the end of a block belong to it. -/
inductive Chomping where
  | strip
  | clip
  | keep
  deriving DecidableEq, Repr

/-- How many line breaks at the end a block asks for, if it says so. -/
def chomping? : Option Char → Option Chomping
  | some '-' => some .strip
  | some '+' => some .keep
  | _ => none

/-- Takes what a block says on its line breaks, if it does. -/
def takeChomping : Scan (Option Chomping) := do
  let found := chomping? (← Scan.peek)
  if found.isSome then Scan.skip 1
  return found

/-- Takes how far a block is indented, if it says so; nought is refused. -/
def takeIndent : Scan (Option Nat) := do
  match (← Scan.peek) >>= digit? 10 with
  | none => return none
  | some 0 => failure
  | some n => Scan.skip 1; return some n

/-- Passes over the indentation of lines up to one that is not empty. Gives what the
line breaks on the way count as, and the column of the widest indentation. No tab may
stand where the indentation is not complete. -/
def skipIndent (indent : Option Nat) : Scan (List Char × Nat) :=
  Scan.untilDone (fun ((breaks, widest) : List Char × Nat) => do
    let column := (← get).column
    let spaces := (← Scan.rest).takeWhile (· == ' ')
    Scan.skip (match indent with
      | some n => min spaces.length (n - column)
      | none => spaces.length)
    let column := (← get).column
    let widest := max widest column
    guard !((← Scan.peek) == some '\t' && indent.all (column < ·))
    let counted ← takeBreak
    if counted.isEmpty then return .inr (breaks, widest)
    return .inl (breaks ++ counted, widest)) ([], 0)

/-- The lines of a block: its text so far, the line break that ends it, the breaks
after that one, and whether its last line begins with a blank. -/
structure Lines where
  text : String := ""
  last : List Char := []
  more : List Char := []
  blank : Bool := false

/-- What stands between a block's lines so far and its next one. In a folded block the
break between two lines that begin with no blank is a space, or nothing if others
follow it. -/
def Lines.between (folded : Bool) (l : Lines) (nextBlank : Bool) : List Char :=
  if folded && l.last == ['\n'] && !l.blank && !nextBlank then
    if l.more.isEmpty then [' '] else l.more
  else l.last ++ l.more

/-- The text of a block with the line breaks at its end that belong to it. -/
def Lines.ending (chomping : Chomping) (l : Lines) : String :=
  match chomping with
  | .strip => l.text
  | .clip => l.text ++ String.ofList l.last
  | .keep => l.text ++ String.ofList (l.last ++ l.more)

/-- A block of lines, after the sign that announces it. `level` is how far it has to be
indented at least; it is indented as far as it says, or as its first line is. -/
def block (folded : Bool) (level : Nat) : Scan String := do
  let (chomping, indent) ←
    match ← takeChomping with
    | some c => pure (c, ← takeIndent)
    | none =>
      let indent ← takeIndent
      pure ((← takeChomping).getD .clip, indent)
  endOfLine
  let indent := indent.map (level - 1 + ·)
  let (breaks, widest) ← skipIndent indent
  let indent := indent.getD (max widest (max level 1))
  Scan.untilDone (fun (l : Lines) => do
    match ← Scan.peek with
    | some c =>
      if (← get).column == indent then
        let line ← Scan.takeWhile fun c => !isBreak c
        let text := l.text ++ String.ofList (l.between folded (isBlank c) ++ line)
        let last ← takeBreak
        let (more, _) ← skipIndent (some indent)
        return .inl { text, last, more, blank := isBlank c }
      else return .inr (l.ending chomping)
    | none => return .inr (l.ending chomping)) { more := breaks }

end ReverseTunnel.Data.Yaml
