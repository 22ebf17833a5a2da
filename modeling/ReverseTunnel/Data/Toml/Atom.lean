import ReverseTunnel.Data.Cursor
import ReverseTunnel.Data.Value

/-!
Values of the TOML format that are written without quotes or brackets: truth values,
whole numbers, numbers with a fraction or an exponent, dates and times.

An underscore may stand between two digits and nowhere else. A number that no
machine number holds is refused: a whole one beyond 128 bits, any other one that is
not below the least magnitude that rounds to infinity.
-/

namespace ReverseTunnel.Data.Toml

/-- Digits without the underscores between them, if every underscore stands between
two digits. -/
def ungrouped? (isDigit : Char → Bool) : List Char → Option (List Char)
  | [] => none
  | [c] => if isDigit c then some [c] else none
  | c :: '_' :: rest => if isDigit c then (c :: ·) <$> ungrouped? isDigit rest else none
  | c :: rest => if isDigit c then (c :: ·) <$> ungrouped? isDigit rest else none

def isDecimal (c : Char) : Bool := (digit? 10 c).isSome

/-- The number that grouped digits of a base stand for. -/
def grouped? (base : Nat) (cs : List Char) : Option Nat :=
  ungrouped? (fun c => (digit? base c).isSome) cs >>= natural? base

/-- A decimal number without needless zeros in front. -/
def decimal? (cs : List Char) : Option Nat :=
  match cs with
  | '0' :: _ :: _ => none
  | _ => grouped? 10 cs

def signed : List Char → Bool × List Char
  | '-' :: rest => (true, rest)
  | '+' :: rest => (false, rest)
  | cs => (false, cs)

def whole? (cs : List Char) : Option Int :=
  match cs with
  | '0' :: 'x' :: rest => Int.ofNat <$> grouped? 16 rest
  | '0' :: 'o' :: rest => Int.ofNat <$> grouped? 8 rest
  | '0' :: 'b' :: rest => Int.ofNat <$> grouped? 2 rest
  | _ =>
    let (negative, digits) := signed cs
    (decimal? digits).map fun n => if negative then -(n : Int) else n

/-- Whether some machine number of at most 128 bits holds a whole number. -/
def isHeld (i : Int) : Bool := -(Nat.pow 2 127 : Int) ≤ i && i < (Nat.pow 2 128 : Int)

/-- The least magnitude that rounds to infinity. -/
def unbounded : Nat := Nat.pow 2 1024 - Nat.pow 2 970

/-- Whether a number times a power of ten is below the least unbounded magnitude. -/
def isFinite (digits : Nat) (shift : Int) : Bool :=
  let order := (Nat.toDigits 10 digits).length + shift
  if digits = 0 || order ≤ 308 then true
  else if 310 ≤ order then false
  else if 0 ≤ shift then digits * Nat.pow 10 shift.toNat < unbounded
  else digits < unbounded * Nat.pow 10 (-shift).toNat

/-- The exponent after the letter that announces it. -/
def exponent? (cs : List Char) : Option Int :=
  let (negative, digits) := signed cs
  (grouped? 10 digits).map fun n => if negative then -(n : Int) else n

/-- Whether the characters are a number with a fraction, an exponent or both, or one
of the two words for what is no number. -/
def isFractional (cs : List Char) : Bool :=
  let (_, magnitude) := signed cs
  if magnitude == ['i', 'n', 'f'] || magnitude == ['n', 'a', 'n'] then true
  else
    let whole := magnitude.takeWhile fun c => isDecimal c || c == '_'
    let fractional (fraction : List Char) (shift : Int) : Bool :=
      match decimal? whole, natural? 10 (fraction.filter (· != '_')) with
      | some w, some f =>
        let places := (fraction.filter (· != '_')).length
        isFinite (w * Nat.pow 10 places + f) (shift - places)
      | _, _ => false
    match magnitude.drop whole.length with
    | '.' :: rest =>
      let fraction := rest.takeWhile fun c => isDecimal c || c == '_'
      (ungrouped? isDecimal fraction).isSome &&
        match rest.drop fraction.length with
        | [] => fractional fraction 0
        | e :: rest => (e == 'e' || e == 'E') && (exponent? rest).any (fractional fraction)
    | e :: rest => (e == 'e' || e == 'E') && (exponent? rest).any (fractional ['0'])
    | [] => false

/-- A number of decimal digits. -/
def number (digits : Nat) : Scan Nat := Scan.digits (digit? 10) 10 digits 0

/-- Whether a year has a 29th of February. -/
def isLeap (year : Nat) : Bool := year % 4 == 0 && (year % 100 != 0 || year % 400 == 0)

/-- How many days a month has. -/
def daysIn (year month : Nat) : Nat :=
  if month = 2 then if isLeap year then 29 else 28
  else if month = 4 || month = 6 || month = 9 || month = 11 then 30
  else 31

def date : Scan Unit := do
  let year ← number 4
  Scan.expect '-'
  let month ← number 2
  Scan.expect '-'
  let day ← number 2
  guard (1 ≤ month && month ≤ 12 && 1 ≤ day && day ≤ daysIn year month)

/-- A time of day; seconds and their fraction may be left out. -/
def timeOfDay : Scan Unit := do
  let hour ← number 2
  Scan.expect ':'
  let minute ← number 2
  guard (hour ≤ 23 && minute ≤ 59)
  if ← Scan.accept ':' then
    guard ((← number 2) ≤ 60)
    if ← Scan.accept '.' then
      guard (!(← Scan.takeWhile isDecimal).isEmpty)

/-- How far a time of day is from the universal one, if it says so. -/
def offset : Scan Unit := do
  match ← Scan.peek with
  | none => return
  | some c =>
    Scan.skip 1
    if c == 'Z' || c == 'z' then return
    guard (c == '+' || c == '-')
    let hours ← number 2
    Scan.expect ':'
    let minutes ← number 2
    guard (hours ≤ 23 && minutes ≤ 59)

def moment : Scan Unit := do
  match ← Scan.rest with
  | _ :: _ :: ':' :: _ => timeOfDay
  | _ =>
    date
    match ← Scan.peek with
    | none => return
    | some c =>
      Scan.skip 1
      guard (c == 'T' || c == 't' || c == ' ')
      timeOfDay
      offset
  guard (← Scan.rest).isEmpty

/-- Whether the characters are a date, a time of day, or both. -/
def isMoment (cs : List Char) : Bool := (moment.run { rest := cs }).isSome

/-- Whether the characters are a date. -/
def isDate (cs : List Char) : Bool :=
  match date.run { rest := cs } with
  | some (_, c) => c.rest.isEmpty
  | none => false

/-- The value that the characters stand for. -/
def atom? (cs : List Char) : Option Value :=
  if cs == "true".toList then some (.bool true)
  else if cs == "false".toList then some (.bool false)
  else
    match whole? cs with
    | some i => if isHeld i then some (.int i) else none
    | none => if isFractional cs || isMoment cs then some .other else none

/-- Whether a character ends a value that has no quotes or brackets. -/
def endsAtom (c : Char) : Bool :=
  c == ' ' || c == '\t' || c == '\n' || c == '\r' || c == ',' || c == ']' || c == '\x7d' ||
    c == '#'

/-- Takes a value without quotes or brackets. A date and a time of day may have one
space between them. -/
def atom : Scan Value := do
  let first ← Scan.takeWhile fun c => !endsAtom c
  let all ← match ← Scan.rest with
    | ' ' :: c :: _ =>
      if isDate first && isDecimal c then
        Scan.skip 1
        pure (first ++ ' ' :: (← Scan.takeWhile fun c => !endsAtom c))
      else pure first
    | _ => pure first
  match atom? all with
  | some v => return v
  | none => failure

end ReverseTunnel.Data.Toml
