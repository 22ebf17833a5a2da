import ReverseTunnel.Data.Toml.Atom
import ReverseTunnel.Data.Toml.Quoted
import ReverseTunnel.Data.Toml.Tree

/-!
Documents of the TOML format, version 1.1.

`parse?` reads a text into a table of its keys. Brackets may be nested `depth` deep.
-/

namespace ReverseTunnel.Data.Toml

/-- A character that a key may have without quotes. -/
def isBare (c : Char) : Bool := c.isAlphanum || c == '_' || c == '-'

def skipBlanks : Scan Unit := Scan.skipWhile isBlank

def skipComment : Scan Unit := do
  if ← Scan.accept '#' then Scan.skipWhile isPrintable

/-- Passes over blanks, comments and line breaks. -/
def skipGap : Scan Unit :=
  Scan.untilDone (fun () => do
    skipBlanks
    skipComment
    return if ← acceptBreak then .inl () else .inr ()) ()

/-- What has to follow on a line that is complete: nothing but blanks and a comment. -/
def endOfLine : Scan Unit := do
  skipBlanks
  skipComment
  unless ← acceptBreak do guard (← Scan.rest).isEmpty

def simpleKey : Scan String := do
  match ← Scan.peek with
  | some '"' => Scan.skip 1; onOneLine '"'
  | some '\'' => Scan.skip 1; onOneLine '\''
  | _ =>
    let cs ← Scan.takeWhile isBare
    guard (!cs.isEmpty)
    return String.ofList cs

/-- A key with dots: the parts before the last one, and the last one. -/
def dottedKey : Scan (List String × String) :=
  Scan.untilDone (fun (path : List String) => do
    skipBlanks
    let part ← simpleKey
    skipBlanks
    return if ← Scan.accept '.' then .inl (path ++ [part]) else .inr (path, part)) []

/-- How deep brackets may be nested. -/
def depth : Nat := 80

/-- The items between two brackets, the first of which is taken already. Line breaks
and comments may stand around items, and a comma may follow the last one. -/
def items {α : Type} (item : Scan α) (close : Char) : Scan (List α) :=
  Scan.untilDone (fun (done : List α) => do
    skipGap
    if ← Scan.accept close then return .inr done
    let all := done ++ [← item]
    skipGap
    if ← Scan.accept ',' then return .inl all
    Scan.expect close
    return .inr all) []

def assignment (value : Scan Value) : Scan Assignment := do
  let (path, key) ← dottedKey
  Scan.expect '='
  skipBlanks
  return { path, key, value := ← value }

def scalar : Scan Value := do
  match ← Scan.peek with
  | some '"' | some '\'' => return .scalar .quoted (← quoted)
  | _ => atom

/-- A value with brackets nested at most a number deep. -/
def value : Nat → Scan Value
  | 0 => scalar
  | nesting + 1 => do
    match ← Scan.peek with
    | some '[' =>
      Scan.skip 1
      return .list (← items (value nesting) ']') true
    | some '\x7b' =>
      Scan.skip 1
      match assignAll (← items (assignment (value nesting)) '\x7d') [] with
      | some entries => return .table (fields entries)
      | none => failure
    | _ => scalar

/-- A line that names a table. -/
def header : Scan (Announced × List String × String) := do
  Scan.expect '['
  if ← Scan.accept '[' then
    let (path, key) ← dottedKey
    Scan.expect ']'
    Scan.expect ']'
    return (.item, path, key)
  else
    let (path, key) ← dottedKey
    Scan.expect ']'
    return (.table, path, key)

/-- The assignments up to the next header or the end. -/
def assignments : Scan (List Assignment) :=
  Scan.untilDone (fun (done : List Assignment) => do
    skipGap
    match ← Scan.peek with
    | none | some '[' => return .inr done
    | some _ =>
      let a ← assignment (value depth)
      endOfLine
      return .inl (done ++ [a])) []

def sections : Scan (List Section) :=
  Scan.untilDone (fun (done : List Section) => do
    match ← Scan.peek with
    | none => return .inr done
    | some _ =>
      let (announced, path, key) ← header
      endOfLine
      return .inl (done ++ [{ announced, path, key, assignments := ← assignments }])) []

/-- The text without the mark of its byte order. -/
def unmarked : List Char → List Char
  | c :: rest => if c.toNat = 0xFEFF then rest else c :: rest
  | [] => []

/-- Reads a document from its characters. -/
def ofChars? (text : List Char) : Option Value := do
  let (top, cursor) ← assignments.run (Cursor.start (unmarked text))
  let (sections, _) ← sections.run cursor
  return .table (fields (← build top sections))

def parse? (text : String) : Option Value := ofChars? text.toList

end ReverseTunnel.Data.Toml
