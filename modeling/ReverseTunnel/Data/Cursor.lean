/-!
Reading a text from left to right.

A `Cursor` is what is left of the text and the place where it starts, and a `Scan`
is a step that takes something off its front or fails. A step that is repeated may
be repeated as often as there are characters left: `untilDone` fails beyond that, so
a step that takes a character each time is never cut short.
-/

namespace ReverseTunnel.Data

/-- What is left of a text, and where that starts: how many characters and lines
come before it, and how many characters of its line do. -/
structure Cursor where
  rest : List Char
  index : Nat := 0
  line : Nat := 0
  column : Nat := 0
  deriving Repr

/-- A text from its beginning. -/
def Cursor.start (text : List Char) : Cursor := { rest := text }

/-- Past a number of characters on the same line. -/
def Cursor.past (n : Nat) (c : Cursor) : Cursor :=
  { c with rest := c.rest.drop n, index := c.index + n, column := c.column + n }

/-- Past a line break of a number of characters. -/
def Cursor.pastBreak (n : Nat) (c : Cursor) : Cursor :=
  { rest := c.rest.drop n, index := c.index + n, line := c.line + 1, column := 0 }

/-- A step that takes something off the front of a text, or fails. -/
abbrev Scan := StateT Cursor Option

namespace Scan

/-- The characters that are left. -/
def rest : Scan (List Char) := return (← get).rest

/-- The next character, without taking it. -/
def peek : Scan (Option Char) := return (← get).rest.head?

/-- Takes a number of characters. -/
def skip (n : Nat) : Scan Unit := modify (Cursor.past n)

/-- Takes the next character. -/
def next : Scan Char := do
  match (← get).rest with
  | c :: _ => skip 1; return c
  | [] => failure

/-- Takes a character that has to be there. -/
def expect (c : Char) : Scan Unit := do
  guard ((← peek) == some c)
  skip 1

/-- Takes a character if it is there, and says whether it was. -/
def accept (c : Char) : Scan Bool := do
  if (← peek) == some c then skip 1; return true else return false

/-- Takes characters as long as they are of a kind. -/
def takeWhile (p : Char → Bool) : Scan (List Char) := do
  let taken := (← get).rest.takeWhile p
  skip taken.length
  return taken

/-- Passes over characters as long as they are of a kind. -/
def skipWhile (p : Char → Bool) : Scan Unit := discard (takeWhile p)

/-- Takes a number of characters that all have to be digits of a base, and gives the
number that they stand for. -/
def digits (digit? : Char → Option Nat) (base : Nat) : Nat → Nat → Scan Nat
  | 0, acc => return acc
  | n + 1, acc => do
    match digit? (← next) with
    | some d => digits digit? base n (acc * base + d)
    | none => failure

/-- Repeats a step until it gives a result, at most a number of times. -/
def repeated {τ σ β : Type} (step : σ → StateT τ Option (σ ⊕ β)) : Nat → σ → StateT τ Option β
  | 0, _ => failure
  | n + 1, s => do
    match ← step s with
    | .inl s => repeated step n s
    | .inr b => return b

/-- Repeats a step until it gives a result, at most once for each character that is
left and once more. -/
def untilDone {σ β : Type} (step : σ → Scan (σ ⊕ β)) (s : σ) : Scan β := do
  repeated step ((← get).rest.length + 1) s

end Scan

end ReverseTunnel.Data
