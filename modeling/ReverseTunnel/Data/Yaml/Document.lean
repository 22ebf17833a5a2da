import ReverseTunnel.Data.Yaml.Layout
import ReverseTunnel.Data.Yaml.Node

/-!
Documents of the YAML format, version 1.1 or 1.2.

`parse?` reads a text of at most one document. A text without a document, and a
document without a node, stand for nothing.
-/

namespace ReverseTunnel.Data.Yaml

/-- The tokens that are left, and what the ones before them have named. -/
structure Reading where
  tokens : List Token
  /-- The handles and what they mean, the ones to be tried first in front. -/
  handles : List (String × Bytes) := []
  /-- The anchors and the numbers of their nodes, each anchor once. -/
  anchors : List (String × Nat) := []

/-- A step that takes tokens off the front, or fails. -/
abbrev Reader := StateT Reading Option

def peek : Reader (Option Token) := return (← get).tokens.head?

def skip : Reader Unit := modify fun r => { r with tokens := r.tokens.tail }

/-- Takes a token if it is there, and says whether it was. -/
def accept (t : Token) : Reader Bool := do
  if (← peek) == some t then skip; return true else return false

/-- Takes a token that has to be there. -/
def expect (t : Token) : Reader Unit := do guard (← accept t)

/-- Whether the next token is one of some. -/
def isNext (ts : List Token) : Reader Bool := return (← peek).any ts.contains

/-- Repeats a step until it gives a result, at most once for each token that is left
and once more. -/
def untilDone {σ β : Type} (step : σ → Reader (σ ⊕ β)) (s : σ) : Reader β := do
  Scan.repeated step ((← get).tokens.length + 1) s

/-- The type that a tag names: a tag of the core types by their names. -/
def markOf (tag : Bytes) : Mark :=
  let core := octetsOf "tag:yaml.org,2002:".toList
  if tag == core ++ octetsOf "null".toList then .nothing
  else if tag == core ++ octetsOf "bool".toList then .truth
  else if tag == core ++ octetsOf "int".toList then .whole
  else .unknown

/-- The meaning of a tag with a handle, which has to be known. -/
def meaning (handle : String) (suffix : Bytes) : Reader Bytes := do
  if handle.isEmpty then return suffix
  match (← get).handles.lookup handle with
  | some meaning => return meaning ++ suffix
  | none => failure

/-- What stands in front of a node. -/
structure Properties where
  anchor : Option String := none
  tag : Option Bytes := none

/-- Takes what stands in front of a node: an anchor and a tag in either order. -/
def properties : Reader Properties := do
  let takeAnchor : Reader (Option String) := do
    match ← peek with
    | some (.anchor name) => skip; return some name
    | _ => return none
  let takeTag : Reader (Option Bytes) := do
    match ← peek with
    | some (.tag handle suffix) => skip; return some (← meaning handle suffix)
    | _ => return none
  match ← takeAnchor with
  | some name => return { anchor := some name, tag := ← takeTag }
  | none =>
    let tag ← takeTag
    return { anchor := ← if tag.isSome then takeAnchor else pure none, tag }

/-- The form of a scalar: the lone exclamation mark in front of it says nothing. -/
def formOf (style : Style) (tag : Option Bytes) : Form :=
  let mark := (tag.filter (· != octetsOf ['!'])).map markOf
  match style with
  | .quoted => .quoted
  | .plain => .plain mark
  | .block => .block mark

/-- Gives the node that begins here its number. An anchor that is used again is given
to the later node from there on. -/
def named (name : String) : Reader Nat := do
  let r ← get
  let id := r.anchors.length
  if r.anchors.any (·.1 == name) then
    set { r with anchors := r.anchors.map fun (n, i) => (n, if n == name then id else i) }
  else
    set { r with anchors := r.anchors ++ [(name, id)] }
  return id

/-- Where a node stands: among items or keys, where the items of a list need not be
further in, or between brackets. -/
inductive Place where
  | item
  | keyed
  | flow
  deriving DecidableEq, Repr

/-- A node, unless one of some tokens follows, which leaves its place empty. -/
def nodeUnless (ends : List Token) (node : Reader Node) : Reader Node := do
  if ← isNext ends then return .empty else node

/-- The items of a block, each after its sign. -/
def blockItems (node : Place → Reader Node) : Reader Node :=
  untilDone (fun (done : List Node) => do
    if ← accept .dash then
      return .inl (done ++ [← nodeUnless [.dash, .blockEnd] (node .item)])
    expect .blockEnd
    return .inr (.list done)) []

/-- The items of a list that is no further in than its key. -/
def unindentedItems (node : Place → Reader Node) : Reader Node :=
  untilDone (fun (done : List Node) => do
    if ← accept .dash then
      return .inl (done ++ [← nodeUnless [.dash, .key, .value, .blockEnd] (node .item)])
    return .inr (.list done)) []

/-- The keys of a block and their values. -/
def blockEntries (node : Place → Reader Node) : Reader Node :=
  untilDone (fun (done : List (Node × Node)) => do
    if ← accept .key then
      let key ← nodeUnless [.key, .value, .blockEnd] (node .keyed)
      let value ←
        if ← accept .value then nodeUnless [.key, .value, .blockEnd] (node .keyed)
        else pure .empty
      return .inl (done ++ [(key, value)])
    expect .blockEnd
    return .inr (.table done)) []

/-- The value after a key between brackets, if there is one. -/
def flowValue (node : Place → Reader Node) (close : Token) : Reader Node := do
  if ← accept .value then nodeUnless [.comma, close] (node .flow) else return .empty

/-- An item between brackets: a node, or a key and a value, which make a table. What
stands for a key that is missing is passed over. -/
def flowItem (node : Place → Reader Node) : Reader Node := do
  if ← accept .key then
    let key ←
      if ← isNext [.value, .comma, .flowListEnd] then skip; pure Node.empty
      else node .flow
    return .table [(key, ← flowValue node .flowListEnd)]
  else node .flow

/-- An entry between brackets: a key and a value, or a key alone. -/
def flowEntry (node : Place → Reader Node) : Reader (Node × Node) := do
  if ← accept .key then
    let key ← nodeUnless [.value, .comma, .flowTableEnd] (node .flow)
    return (key, ← flowValue node .flowTableEnd)
  else return (← node .flow, .empty)

/-- What stands between brackets: commas between the parts, and one after the last if
need be. -/
def bracketed {α : Type} (part : Reader α) (close : Token) : Reader (List α) :=
  untilDone (fun (done : List α) => do
    if ← accept close then return .inr done
    unless done.isEmpty do
      expect .comma
      if ← accept close then return .inr done
    return .inl (done ++ [← part])) []

/-- The content of a node, whose parts are read by `node`. -/
def content (node : Place → Reader Node) (place : Place) (p : Properties) : Reader Node := do
  match ← peek with
  | some (.scalar style text) => skip; return .scalar (formOf style p.tag) text
  | some .flowList => skip; return .list (← bracketed (flowItem node) .flowListEnd)
  | some .flowTable => skip; return .table (← bracketed (flowEntry node) .flowTableEnd)
  | t =>
    if t == some .dash && place == .keyed then unindentedItems node
    else if t == some .blockList && place != .flow then skip; blockItems node
    else if t == some .blockTable && place != .flow then skip; blockEntries node
    else
      guard (p.anchor.isSome || p.tag.isSome)
      return .scalar (.plain (p.tag.map markOf)) ""

/-- A node with others nested at most a number deep inside it. -/
def node : Nat → Place → Reader Node
  | 0, _ => failure
  | nesting + 1, place => do
    match ← peek with
    | some (.alias name) =>
      skip
      match (← get).anchors.lookup name with
      | some id => return .alias id
      | none => failure
    | _ =>
      let p ← properties
      match p.anchor with
      | some name =>
        let id ← named name
        return .anchored id (← content (node nesting) place p)
      | none => content (node nesting) place p

/-- The meanings of handles where no directive gives others. -/
def standardHandles : List (String × Bytes) :=
  [("!", octetsOf ['!']), ("!!", octetsOf "tag:yaml.org,2002:".toList)]

/-- Takes the directives in front of a document: the version once, and each handle
once. -/
def directives : Reader Unit :=
  untilDone (fun (versioned : Bool) => do
    match ← peek with
    | some (.version major minor) =>
      guard (!versioned && major == 1 && (minor == 1 || minor == 2))
      skip
      return .inl true
    | some (.handle name meaning) =>
      let r ← get
      guard (!r.handles.any (·.1 == name))
      set { r with handles := r.handles ++ [(name, meaning)] }
      skip
      return .inl versioned
    | _ => return .inr ()) false

/-- Whether the next token can only stand between two documents. -/
def atBoundary : Reader Bool := do
  match ← peek with
  | none | some .documentStart | some .documentEnd | some (.version _ _)
  | some (.handle _ _) => return true
  | _ => return false

/-- Takes one document, and all there is to take. -/
def document : Reader Node := do
  if (← peek).isNone then return .empty
  let boundary := (← atBoundary) && !(← isNext [.documentEnd])
  directives
  if boundary then expect .documentStart
  modify fun r => { r with handles := r.handles ++ standardHandles }
  let nesting := (← get).tokens.length + 1
  let found ← if boundary && (← atBoundary) then pure .empty else node nesting .item
  untilDone (fun () => do
    return if ← accept .documentEnd then .inl () else .inr ()) ()
  guard (← peek).isNone
  return found

/-- Reads a document from its characters, down to a depth. -/
def ofChars? (depth : Nat) (text : List Char) : Option Value := do
  let (root, _) ← document.run { tokens := ← tokens? text }
  return root.value root.targets depth

/-- Reads a document down to a depth. -/
def parse? (depth : Nat) (text : String) : Option Value := ofChars? depth text.toList

end ReverseTunnel.Data.Yaml
