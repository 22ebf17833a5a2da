/-!
Documents: the values that a configuration text is read into, whatever its format.

A scalar of a format that does not settle types keeps its characters, and what it
means is settled by what is asked of it: `text?` takes any scalar, `bool?`, `int?`
and `natural?` only those that read as such, and `isNull?` says which stand for
nothing.
-/

namespace ReverseTunnel.Data

/-- The type that a mark in front of a scalar names. -/
inductive Mark where
  | nothing
  | truth
  | whole
  /-- A type that nothing here reads. -/
  | unknown
  deriving DecidableEq, Repr

/-- How a scalar was written. -/
inductive Form where
  /-- As text, whatever it looks like. -/
  | quoted
  /-- Bare, with or without a mark in front. -/
  | plain (mark : Option Mark)
  /-- As a block of lines that are kept as they are. -/
  | block (mark : Option Mark)
  deriving DecidableEq, Repr

/-- A document or a part of one. -/
inductive Value where
  | null
  | bool (b : Bool)
  | int (i : Int)
  /-- A number with a fraction, a date or a time: nothing reads one. -/
  | other
  | scalar (form : Form) (text : String)
  /-- A list; one that `isOpen` may be longer than its reader has use for. -/
  | list (items : List Value) (isOpen : Bool)
  /-- Keys and values in the order in which they are written. -/
  | table (entries : List (Value × Value))
  deriving Inhabited, Repr

/-- The value of a digit, if it is one in that base. -/
def digit? (base : Nat) (c : Char) : Option Nat :=
  let n := c.toNat
  let d :=
    if '0'.toNat ≤ n ∧ n ≤ '9'.toNat then n - '0'.toNat
    else if 'a'.toNat ≤ n ∧ n ≤ 'z'.toNat then n - 'a'.toNat + 10
    else if 'A'.toNat ≤ n ∧ n ≤ 'Z'.toNat then n - 'A'.toNat + 10
    else base
  if d < base then some d else none

/-- The number that digits stand for, after those read so far. -/
def digitsFrom (base : Nat) (acc : Nat) : List Char → Option Nat
  | [] => some acc
  | c :: rest =>
    match digit? base c with
    | some d => digitsFrom base (acc * base + d) rest
    | none => none

/-- The number that one or more digits stand for. -/
def natural? (base : Nat) : List Char → Option Nat
  | [] => none
  | cs => digitsFrom base 0 cs

namespace Plain

def isNull (text : String) : Bool :=
  text == "" || text == "~" || text == "null" || text == "Null" || text == "NULL"

def bool? (text : String) : Option Bool :=
  if text == "true" || text == "True" || text == "TRUE" then some true
  else if text == "false" || text == "False" || text == "FALSE" then some false
  else none

/-- A number without its sign: with `0x`, `0o` or `0b` in front in that base, else
decimal without leading zeros. -/
def magnitude? (cs : List Char) : Option Nat :=
  match cs with
  | '0' :: 'x' :: rest => natural? 16 rest
  | '0' :: 'o' :: rest => natural? 8 rest
  | '0' :: 'b' :: rest => natural? 2 rest
  | '0' :: _ :: _ => none
  | _ => natural? 10 cs

/-- A number with or without a plus in front. -/
def natural? (text : String) : Option Nat :=
  match text.toList with
  | '+' :: rest => magnitude? rest
  | cs => magnitude? cs

/-- A whole number with or without a sign. -/
def int? (text : String) : Option Int :=
  match text.toList with
  | '-' :: rest => (magnitude? rest).map fun n => -(n : Int)
  | '+' :: rest => (magnitude? rest).map fun n => (n : Int)
  | cs => (magnitude? cs).map fun n => (n : Int)

end Plain

namespace Value

/-- Whether the value stands for nothing; unsettled where a mark says so and the
text does not. -/
def isNull? : Value → Option Bool
  | null => some true
  | scalar (.plain none) text => some (Plain.isNull text)
  | scalar (.plain (some .nothing)) text =>
    if text != "" && Plain.isNull text then some true else none
  | _ => some false

def text? : Value → Option String
  | scalar _ text => some text
  | _ => none

/-- Whether a scalar may be read as a value of the type that a mark names: a bare
one whatever its mark, a block with that very mark. -/
def mayRead (type : Mark) : Form → Bool
  | .quoted => false
  | .plain _ => true
  | .block mark => mark == some type

def bool? : Value → Option Bool
  | bool b => some b
  | scalar form text => if mayRead .truth form then Plain.bool? text else none
  | _ => none

def int? : Value → Option Int
  | int i => some i
  | scalar form text => if mayRead .whole form then Plain.int? text else none
  | _ => none

/-- The whole number that is not negative. -/
def natural? : Value → Option Nat
  | int i => if 0 ≤ i then some i.toNat else none
  | scalar form text => if mayRead .whole form then Plain.natural? text else none
  | _ => none

end Value

end ReverseTunnel.Data
