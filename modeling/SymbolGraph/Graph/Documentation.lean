import SymbolGraph.Graph.Containment

/-!
# Documentation
-/

namespace SymbolGraph

variable {σ : Type}

/-- The comment written on a symbol. -/
def SymbolRecord.doc (symbol : SymbolRecord) : Option String := symbol.source.bind Source.doc

namespace FunctionNode

/-- A constructor that was not written. -/
def isSyntheticConstructor (f : FunctionNode) : Bool :=
  f.details.isConstructor && (f.symbol.origin == .synthetic || f.symbol.source.isNone)

/-- The comment of a function. A constructor that was not written has the comment of its class. -/
def docString (f : FunctionNode) : Query σ (Option String) :=
  Query.memoize (f.id.cell .docString) do
    if f.isSyntheticConstructor then
      match ← (Declaration.function f).parent with
      | some ⟨.classLike, index⟩ => return (← Query.resolve (⟨index⟩ : ClassId)).symbol.doc
      | _ => return none
    else return f.symbol.doc

end FunctionNode

def Declaration.docString : Declaration → Query σ (Option String)
  | function d => d.docString
  | d => return d.symbol.doc

end SymbolGraph
