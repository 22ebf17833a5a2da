import ReverseTunnel.Data.Yaml.Token

/-!
From a text to its tokens.

Outside brackets, a column further in than the one before begins a block of items or
keys and a column further out ends one. A key has no sign in front of it: whatever may
turn out to be one is kept as a candidate until a colon follows it, which makes it a
key, or until that has become impossible, because a line or 1024 characters have gone
by. A candidate that stands where its block's keys stand has to become one.
-/

namespace ReverseTunnel.Data.Yaml

/-- What may turn out to be a key. -/
structure Candidate where
  /-- How many tokens come before it. -/
  tokens : Nat
  index : Nat
  line : Nat
  column : Nat
  /-- Whether nothing but a key may stand there. -/
  required : Bool

/-- The tokens so far and what decides on the next ones. -/
structure Layout where
  tokens : Array Token := #[]
  /-- One more than the column of each block that is open, from the inside out. -/
  levels : List Nat := []
  /-- The latest candidate within the innermost brackets. -/
  candidate : Option Candidate := none
  /-- The candidates outside these brackets, from the inside out. -/
  outerCandidates : List (Option Candidate) := []
  /-- Whether a key may begin here. -/
  keyAllowed : Bool := true

namespace Layout

/-- How far what belongs to the innermost block has to be indented. -/
def level (l : Layout) : Nat := l.levels.headD 0

/-- Whether brackets are open. -/
def inFlow (l : Layout) : Bool := !l.outerCandidates.isEmpty

def push (t : Token) (l : Layout) : Layout := { l with tokens := l.tokens.push t }

/-- Adds a token in front of those that come after the first ones. -/
def insertAt (n : Nat) (t : Token) (l : Layout) : Layout :=
  { l with tokens := (l.tokens.extract 0 n).push t ++ l.tokens.extract n l.tokens.size }

/-- Whether a candidate can become a key no more. -/
def isStale (here : Cursor) (c : Candidate) : Bool :=
  c.line < here.line || c.index + 1024 < here.index

/-- What is left of a candidate once it is dropped; a required one may not be. -/
def dropped : Option Candidate → Option (Option Candidate)
  | some c => if c.required then none else some none
  | none => some none

/-- What is left of a candidate after the text before `here`. -/
def kept? (here : Cursor) (candidate : Option Candidate) : Option (Option Candidate) :=
  if candidate.any (isStale here) then dropped candidate else some candidate

/-- Without the candidates that can become keys no more. -/
def forget? (here : Cursor) (l : Layout) : Option Layout := do
  return { l with
    candidate := ← kept? here l.candidate
    outerCandidates := ← l.outerCandidates.mapM (kept? here) }

/-- Without the latest candidate. -/
def drop? (l : Layout) : Option Layout := do
  return { l with candidate := ← dropped l.candidate }

/-- Keeps what begins here as a candidate, if a key may begin here. -/
def offer? (here : Cursor) (l : Layout) : Option Layout := do
  if l.keyAllowed then
    let l ← l.drop?
    return { l with candidate := some {
      tokens := l.tokens.size, index := here.index, line := here.line, column := here.column
      required := !l.inFlow && l.level == here.column + 1 } }
  else return l

/-- Ends the blocks that are further in than a level. -/
def closeTo (level : Nat) (l : Layout) : Layout :=
  if l.inFlow then l
  else
    let ended := (l.levels.takeWhile (level < ·)).length
    { l with
      tokens := l.tokens ++ Array.replicate ended .blockEnd
      levels := l.levels.drop ended }

/-- Begins a block at a column, in front of the tokens after the first `n`, unless the
innermost block is there already. -/
def openAt (column n : Nat) (t : Token) (l : Layout) : Layout :=
  if !l.inFlow && l.level ≤ column then
    { l.insertAt n t with levels := (column + 1) :: l.levels }
  else l

/-- Begins a block at a column with the next token. -/
def openHere (column : Nat) (t : Token) (l : Layout) : Layout :=
  l.openAt column l.tokens.size t

/-- Whether a block may begin here: it has to where a key might. -/
def allowsBlock (l : Layout) : Bool := l.inFlow || l.keyAllowed

/-- The sign of an item. -/
def dash? (column : Nat) (l : Layout) : Option Layout := do
  guard l.allowsBlock
  let l ← (l.openHere column .blockList).drop?
  return { l.push .dash with keyAllowed := true }

/-- The sign in front of a key. -/
def key? (column : Nat) (l : Layout) : Option Layout := do
  guard l.allowsBlock
  let l ← (l.openHere column .blockTable).drop?
  return { l.push .key with keyAllowed := !l.inFlow }

/-- The sign in front of a value: it makes the latest candidate a key. -/
def value? (column : Nat) (l : Layout) : Option Layout := do
  match l.candidate with
  | some c =>
    let l := (l.insertAt c.tokens .key).openAt c.column c.tokens .blockTable
    return { l.push .value with candidate := none, keyAllowed := false }
  | none =>
    guard l.allowsBlock
    let l := l.openHere column .blockTable
    return { l.push .value with keyAllowed := !l.inFlow }

def openBracket? (here : Cursor) (t : Token) (l : Layout) : Option Layout := do
  let l ← l.offer? here
  return { l.push t with
    candidate := none, outerCandidates := l.candidate :: l.outerCandidates, keyAllowed := true }

def closeBracket? (t : Token) (l : Layout) : Option Layout := do
  let l ← l.drop?
  return match l.outerCandidates with
    | c :: rest =>
      { l.push t with candidate := c, outerCandidates := rest, keyAllowed := false }
    | [] => { l.push t with keyAllowed := false }

def comma? (l : Layout) : Option Layout := do
  let l ← l.drop?
  return { l.push .comma with keyAllowed := true }

/-- What begins at the margin and ends all blocks. -/
def margin? (l : Layout) : Option Layout := do
  let l ← (l.closeTo 0).drop?
  return { l with keyAllowed := false }

end Layout

/-- Passes over blanks, comments and line breaks to the next token. A tab counts as a
blank where no key may begin. A key may begin on a new line outside brackets. -/
def skipToToken (l : Layout) : Scan Layout :=
  Scan.untilDone (fun (l : Layout) => do
    if (← get).index == 0 && (← Scan.peek).any (·.toNat == 0xFEFF) then Scan.skip 1
    Scan.skipWhile fun c => c == ' ' || (c == '\t' && (l.inFlow || !l.keyAllowed))
    skipComment
    let counted ← takeBreak
    if counted.isEmpty then return .inr l
    return .inl { l with keyAllowed := l.keyAllowed || !l.inFlow }) l

/-- A result that a layout may refuse. -/
def settle (l : Option Layout) : Scan Layout := do
  match l with
  | some l => return l
  | none => failure

/-- A token that may begin a key, and which a key may not follow at once. -/
def offered (l : Layout) (token : Scan Token) : Scan Layout := do
  let l ← settle (l.offer? (← get))
  return { l.push (← token) with keyAllowed := false }

/-- A character that no bare text begins with. -/
def isSign (c : Char) : Bool :=
  ['-', '?', ':', ',', '[', ']', '\x7b', '\x7d', '#', '&', '*', '!', '|', '>', '\'', '"', '%',
    '@', '\x60'].contains c

/-- Whether a bare text begins here: also with one of three signs if it is not a sign
because of what follows. -/
def beginsPlain (inFlow : Bool) : List Char → Bool
  | [] => false
  | c :: rest =>
    !(isGap c || isSign c) || (c == '-' && !rest.head?.any isBlank) ||
      (!inFlow && (c == '?' || c == ':') && !atGap rest)

/-- A bare text. A key may follow it if it ends behind a line break. -/
def plainToken (l : Layout) : Scan Layout := do
  let l ← settle (l.offer? (← get))
  let (text, broken) ← plain l.inFlow l.level
  return { l.push (.scalar .plain text) with keyAllowed := broken }

def blockToken (folded : Bool) (l : Layout) : Scan Layout := do
  let l ← settle l.drop?
  Scan.skip 1
  let text ← block folded l.level
  return { l.push (.scalar (if folded then .quoted else .block) text) with keyAllowed := true }

def signToken (l : Option Layout) : Scan Layout := do
  Scan.skip 1
  settle l

/-- Takes the next token, which begins here, and which is not at the end. -/
def takeToken (l : Layout) : Scan Layout := do
  let here ← get
  match here.rest with
  | [] => failure
  | c :: rest =>
    if here.column == 0 && c == '%' then
      let l ← settle l.margin?
      Scan.skip 1
      return l.push (← directive)
    else if atMarker here then
      let l ← settle l.margin?
      Scan.skip 3
      return l.push (if c == '-' then .documentStart else .documentEnd)
    else if c == '[' then signToken (l.openBracket? here .flowList)
    else if c == '\x7b' then signToken (l.openBracket? here .flowTable)
    else if c == ']' then signToken (l.closeBracket? .flowListEnd)
    else if c == '\x7d' then signToken (l.closeBracket? .flowTableEnd)
    else if c == ',' then signToken l.comma?
    else if c == '-' && atGap rest then signToken (l.dash? here.column)
    else if c == '?' && (l.inFlow || atGap rest) then signToken (l.key? here.column)
    else if c == ':' && (l.inFlow || atGap rest) then signToken (l.value? here.column)
    else if c == '*' then offered l (do Scan.skip 1; return .alias (← anchorName))
    else if c == '&' then offered l (do Scan.skip 1; return .anchor (← anchorName))
    else if c == '!' then offered l (tag l.inFlow)
    else if (c == '|' || c == '>') && !l.inFlow then blockToken (c == '>') l
    else if c == '\'' || c == '"' then
      offered l (do Scan.skip 1; return .scalar .quoted (← quoted c))
    else if beginsPlain l.inFlow here.rest then plainToken l
    else failure

def takeTokens : Scan (Array Token) :=
  Scan.untilDone (fun (l : Layout) => do
    let l ← skipToToken l
    let l ← settle (l.forget? (← get))
    let l := l.closeTo ((← get).column + 1)
    if (← Scan.rest).isEmpty then
      let l ← settle (l.closeTo 0).drop?
      return .inr l.tokens
    return .inl (← takeToken l)) {}

def tokens? (text : List Char) : Option (List Token) := do
  guard (text.all isReadable)
  let (tokens, _) ← takeTokens.run (Cursor.start text)
  return tokens.toList

end ReverseTunnel.Data.Yaml
