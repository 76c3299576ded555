import SymbolGraph.Error
import SymbolGraph.Record.AnnotationUse
import SymbolGraph.Text.LineIndex

/-!
# Oracles

A front end seen as a black box that answers questions. Answering may change its state, so
a later answer may differ from an earlier one, and nothing here promises that answers fit
together.
-/

namespace SymbolGraph

/-- An answer that may be refused. -/
abbrev Answer (σ α : Type) := StateM σ (Except OracleError α)

structure Oracle (σ : Type) where
  /-- The files in scope. -/
  newFiles : StateM σ (List FileKey)
  file : FileKey → Answer σ FileRecord
  /-- The top-level declarations of a package, written and compiled alike. -/
  declarationsInPackage : String → StateM σ (List SymbolKey)
  /-- The class of a qualified name. -/
  classByName : String → StateM σ (Option SymbolKey)
  symbol : SymbolKey → Answer σ SymbolRecord
  annotationUse : AnnotationKey → Answer σ AnnotationRecord
  type : TypeKey → Answer σ TypeRecord
  /-- The class or type parameter that a type refers to. -/
  classifier : TypeKey → StateM σ (Option SymbolKey)
  /-- The type of a class with its own type parameters as arguments. -/
  classType : SymbolKey → Answer σ TypeKey
  /-- The type of a class with stars as arguments. -/
  starProjectedType : SymbolKey → Answer σ TypeKey
  /-- The return type of a function as far as it is known. -/
  returnType : SymbolKey → Answer σ TypeKey
  /-- Settles the return type of a platform method, given the class that declares it. -/
  resolveInteropReturnType : SymbolKey → SymbolKey → Answer σ Unit
  evaluateConstant : ExprKey → StateM σ (Option Constant)
  lineCol : FileKey → Nat → StateM σ (Option LineCol)
  /-- How deep declarations may be nested in one another. A symbol whose chain of containers is
  longer is taken for one that contains itself. -/
  nesting : Nat

end SymbolGraph
