import ReverseTunnel.Data.Value
import ReverseTunnel.Data.Yaml.Token

/-!
Nodes of a YAML document, whose anchors other nodes may refer to.

A node may refer to one that it is part of, so a document has no bound on its depth;
`Node.value` gives the part of it down to a given depth.
-/

namespace ReverseTunnel.Data.Yaml

inductive Node where
  | scalar (form : Form) (text : String)
  | list (items : List Node)
  | table (entries : List (Node × Node))
  /-- A node that others refer to by a number. -/
  | anchored (id : Nat) (node : Node)
  /-- The node with that number. -/
  | alias (id : Nat)
  deriving Inhabited

/-- What an empty place stands for. -/
def Node.empty : Node := .scalar (.plain none) ""

mutual

/-- The nodes that are referred to, with their numbers, in the order in which they
begin. -/
def Node.targets : Node → List (Nat × Node)
  | .scalar _ _ => []
  | .list items => targetsOf items
  | .table entries => targetsIn entries
  | .anchored id node => (id, node) :: node.targets
  | .alias _ => []

/-- The same for the items of a list. -/
def targetsOf : List Node → List (Nat × Node)
  | [] => []
  | n :: rest => n.targets ++ targetsOf rest

/-- The same for the entries of a table. -/
def targetsIn : List (Node × Node) → List (Nat × Node)
  | [] => []
  | (k, v) :: rest => k.targets ++ v.targets ++ targetsIn rest

end

/-- The node with a number; of several the last. -/
def target (targets : List (Nat × Node)) (id : Nat) : Node :=
  match targets.reverse.find? (·.1 == id) with
  | some (_, n) => n
  | none => .empty

/-- A node itself in place of its anchor or of a reference to it. -/
def Node.resolved (targets : List (Nat × Node)) : Node → Node
  | .anchored _ n => n
  | .alias id => target targets id
  | n => n

/-- The value of a node, down to a depth: what is nested deeper is not read. -/
def Node.value (targets : List (Nat × Node)) : Nat → Node → Value
  | 0, _ => .other
  | depth + 1, n =>
    match n.resolved targets with
    | .scalar form text => .scalar form text
    | .list items => .list (items.map (Node.value targets depth)) false
    | .table entries =>
      .table (entries.map fun (k, v) => (k.value targets depth, v.value targets depth))
    | .anchored _ _ | .alias _ => .other

end ReverseTunnel.Data.Yaml
