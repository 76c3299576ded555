import SymbolGraph.Key

/-!
# Source syntax

The physical syntax behind a symbol, as far as the graph looks at it.
-/

namespace SymbolGraph

/-- A place in a file, as a byte offset. -/
structure Position where
  file : FileKey
  offset : Nat
deriving DecidableEq

/-- The language a piece of syntax is written in. -/
inductive SourceForm
  /-- The native source language. -/
  | native
  /-- The platform language that native code interoperates with. -/
  | interop
  /-- Anything else a front end may report. -/
  | other (text : String)
deriving DecidableEq

/-- A statement at the top level of a block body. -/
inductive Statement
  | declaration (symbol : SymbolKey)
  | expression
deriving DecidableEq

inductive Body
  | block (statements : List Statement)
  | expression
deriving DecidableEq

/-- The syntax of one symbol. -/
structure Source where
  position : Position
  form : SourceForm := .native
  /-- Modifier keywords as written. -/
  keywords : List String := []
  doc : Option String := none
  /-- Where the entries of a supertype list stand, in order. -/
  supertypeEntries : List Position := []
  /-- Where the entries of a bound list stand, in order. -/
  boundEntries : List Position := []
  body : Option Body := none
  defaultValue : Option ExprKey := none
deriving DecidableEq

namespace Source

/-- The declarations among the top-level statements of a native block body, in order. Other
bodies and other languages have none. -/
def localDeclarations (source : Source) : List SymbolKey :=
  match source.form, source.body with
  | .native, some (.block statements) => statements.filterMap fun
    | .declaration symbol => some symbol
    | .expression => none
  | _, _ => []

end Source

end SymbolGraph
