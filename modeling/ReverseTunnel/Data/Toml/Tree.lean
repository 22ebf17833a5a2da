import ReverseTunnel.Data.Value

/-!
The tree of tables that a document of the TOML format builds.

A table is there because a header names it, because a header names a table inside
it, or because a dotted key runs through it. `assign` puts a value where a dotted key
says and `define` a table where a header says. Neither ever replaces a value, and a
table that has a header or came from dotted keys is not given a header again.
-/

namespace ReverseTunnel.Data.Toml

/-- Why a table is there. -/
inductive Origin where
  /-- A header names it. -/
  | header
  /-- A header names a table inside it. -/
  | implied
  /-- A dotted key runs through it. -/
  | dotted
  deriving DecidableEq, Repr

/-- What a key stands for while the document is read. -/
inductive Tree where
  /-- A value, which nothing is added to any more. -/
  | value (v : Value)
  | table (origin : Origin) (entries : List (String × Tree))
  /-- Tables that are the items of a list, the last one apart: only it is added to. -/
  | items (done : List (List (String × Tree))) (last : List (String × Tree))

/-- The keys of a table and what they stand for. -/
abbrev Entries := List (String × Tree)

/-- Changes what a key stands for; a key that is new comes last. -/
def alter (key : String) (change : Option Tree → Option Tree) : Entries → Option Entries
  | [] => (change none).map fun t => [(key, t)]
  | (k, t) :: rest =>
    if k = key then (change (some t)).map fun t => (k, t) :: rest
    else (alter key change rest).map ((k, t) :: ·)

/-- Gives a value to a key that stands for nothing yet. -/
def add (key : String) (v : Value) : Entries → Option Entries :=
  alter key fun
    | none => some (.value v)
    | some _ => none

/-- Gives a value to a key below the keys of a path. Tables that are missing on the way
are made; the last one has to be one that dotted keys made. -/
def assign (key : String) (v : Value) : List String → Entries → Option Entries
  | [] => add key v
  | [k] => alter k fun
    | none => some (.table .dotted [(key, .value v)])
    | some (.table .dotted sub) => (add key v sub).map (.table .dotted)
    | some _ => none
  | k :: path => alter k fun
    | none => (assign key v path []).map (.table .dotted)
    | some (.table .header _) => none
    | some (.table origin sub) => (assign key v path sub).map (.table origin)
    | some (.items done last) => (assign key v path last).map (.items done)
    | some (.value _) => none

/-- Changes the table at a path. Tables that are missing on the way are made, and a
list of tables is entered by its last item. -/
def within (change : Entries → Option Entries) : List String → Entries → Option Entries
  | [] => change
  | k :: path => alter k fun
    | none => (within change path []).map (.table .implied)
    | some (.table origin sub) => (within change path sub).map (.table origin)
    | some (.items done last) => (within change path last).map (.items done)
    | some (.value _) => none

/-- A key, the keys of the path in front of it, and its value. -/
structure Assignment where
  path : List String
  key : String
  value : Value

/-- Puts values where their keys say, in order. -/
def assignAll (assignments : List Assignment) (es : Entries) : Option Entries :=
  assignments.foldlM (fun es a => assign a.key a.value a.path es) es

/-- What a header announces: a table, or the next item of a list of tables. -/
inductive Announced where
  | table
  | item
  deriving DecidableEq, Repr

/-- A header and the assignments below it. -/
structure Section where
  announced : Announced
  path : List String
  key : String
  assignments : List Assignment

/-- Gives a key the table that a header announces. -/
def define (s : Section) : Entries → Option Entries :=
  alter s.key fun found =>
    match s.announced, found with
    | .table, none => (assignAll s.assignments []).map (.table .header)
    -- what is only implied may still be given
    | .table, some (.table .implied sub) => (assignAll s.assignments sub).map (.table .header)
    | .item, none => (assignAll s.assignments []).map (.items [])
    | .item, some (.items done last) =>
      (assignAll s.assignments []).map (.items (done ++ [last]))
    | _, _ => none

/-- The tree of a document: the assignments before the first header, then each
section. -/
def build (top : List Assignment) (sections : List Section) : Option Entries := do
  sections.foldlM (fun es s => within (define s) s.path es) (← assignAll top [])

mutual

/-- The value that a tree stands for. -/
def Tree.toValue : Tree → Value
  | .value v => v
  | .table _ entries => .table (fields entries)
  | .items done last => .list (rows done ++ [.table (fields last)]) true

def fields : List (String × Tree) → List (Value × Value)
  | [] => []
  | (k, t) :: rest => (.scalar .quoted k, t.toValue) :: fields rest

/-- The tables of a list. -/
def rows : List (List (String × Tree)) → List Value
  | [] => []
  | es :: rest => .table (fields es) :: rows rest

end

end ReverseTunnel.Data.Toml
