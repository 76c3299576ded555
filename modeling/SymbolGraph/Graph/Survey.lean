import SymbolGraph.Graph.Visitor

/-!
# Surveys

Visitors that look at a tree without asking the session anything: one lists the nodes of a
walk, one counts them, one names them.
-/

namespace SymbolGraph

variable {σ : Type}

namespace Survey

/-- Lists nodes, the latest first, until there are `limit` of them. A node of the kind `refused` stops
the walk. -/
def recorder (limit : Nat) (refused : Option String) : Visitor σ (List NodeId) Unit where
  other node := do
    let visited := (← get).1
    if refused = some node.kind.name then throw (.notImplemented "visitor")
    if limit ≤ visited.length then throw (.notImplemented "walk limit")
    Visit.change (node :: ·)

/-- Counts one more under a name. -/
def count (name : String) (counts : List (String × Nat)) : List (String × Nat) :=
  (name, (counts.lookup name).getD 0 + 1) :: counts.filter (·.1 ≠ name)

/-- Counts nodes by kind, and declarations of every kind together. -/
def counter : Visitor σ (List (String × Nat)) Unit where
  other node := Visit.change (count node.kind.name)
  declaration _ := Visit.change (count "declaration")

/-- Names nodes by their kind. -/
def kindNamer : Visitor σ Unit String where
  other node := return s!"<{node.kind.name}>"

/-- Names declarations by their simple names, and other nodes by their kind. -/
def namer : Visitor σ Unit String where
  other node := return s!"<{node.kind.name}>"
  declaration d := return d.simpleName

/-- The nodes of a walk from a node in order, and how the walk ended. -/
def nodes (root : NodeId) (limit : Nat) (refused : Option String) :
    Query σ (Except GraphError Unit × List NodeId) := do
  let (outcome, visited) ← ((recorder limit refused).walk (limit + 1) [root]).run []
  return (outcome.map fun _ => (), visited.reverse)

/-- How many nodes of each kind a walk from a node meets within `steps` nodes, and how it ended. -/
def counts (root : NodeId) (steps : Nat) : Query σ (Except GraphError Unit × List (String × Nat)) := do
  let (outcome, counts) ← (counter.walk steps [root]).run []
  return (outcome.map fun _ => (), counts)

end Survey

end SymbolGraph
