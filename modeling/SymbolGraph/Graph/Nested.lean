import SymbolGraph.Graph.Signature

/-!
# Nested declarations

Going through declarations and what is declared in them: the constructors and members of
classes, and the local declarations of functions.
-/

namespace SymbolGraph

variable {σ δ : Type}

/-- What is declared right in a declaration. -/
def Declaration.declarationKeys : Declaration → List SymbolKey
  | classLike d => d.declarationKeys
  | function d => d.declarationKeys
  | property _ | typeParameter _ => []

namespace Visit

/-- Wraps a declaration, enters it, and goes on with what is declared in it, at most `depth` levels
down. -/
def nestedWithin (enter : Declaration → Visit σ δ Unit) : Nat → SymbolKey → Visit σ δ Unit
  | depth, key => do
    let d ← Visit.ofQuery (Query.declaration key)
    enter d
    match d.declarationKeys with
    | [] => return
    | keys =>
      match depth with
      | 0 => throw (.inconsistency s!"declarations in `{d.simpleName}`" "finite nesting"
          "symbol that contains itself")
      | depth + 1 => keys.forM (nestedWithin enter depth)

/-- Enters declarations and everything declared in them, each before what is in it. -/
def nested (enter : Declaration → Visit σ δ Unit) (keys : List SymbolKey) : Visit σ δ Unit := do
  let depth := (← read).oracle.nesting
  keys.forM (nestedWithin enter depth)

end Visit

end SymbolGraph
