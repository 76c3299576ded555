import SymbolGraph.Error

/-!
# Reports

What is known about something, as a tree of named values that can be shown anywhere.
-/

namespace SymbolGraph

inductive Datum
  | nothing
  | flag (value : Bool)
  | number (value : Int)
  | text (value : String)
  | list (items : List Datum)
  | fields (items : List (String × Datum))

namespace Datum

instance : Coe Bool Datum := ⟨flag⟩
instance : Coe Nat Datum := ⟨fun n => number n⟩
instance : Coe String Datum := ⟨text⟩

/-- An optional value, or nothing. -/
def opt {α : Type} (write : α → Datum) : Option α → Datum
  | none => nothing
  | some a => write a

def each {α : Type} (write : α → Datum) (items : List α) : Datum := list (items.map write)

def texts (items : List String) : Datum := each text items

end Datum

/-- The name of the sort of an error. -/
def GraphError.cause : GraphError → String
  | inconsistency .. => "InternalConsistency"
  | notImplemented _ => "NotImplemented"
  | staleHandle .. => "StaleHandle"
  | oracle (.unknownSymbol _) => "Oracle.UnknownSymbol"
  | oracle (.unknownType _) => "Oracle.UnknownType"
  | oracle (.unknownAnnotationUse _) => "Oracle.UnknownAnnotation"
  | oracle (.unknownFile _) => "Oracle.UnknownFile"
  | oracle (.other _) => "Oracle.Other"

/-- A failure in place of a value. -/
def Datum.failure (cause message : String) : Datum :=
  .fields [("error", cause), ("message", message)]

def GraphError.report (e : GraphError) : Datum := .failure e.cause e.message

/-- A failure of the front end by itself. -/
def OracleError.report (e : OracleError) : Datum := .failure (GraphError.oracle e).cause e.message

/-- A value or the failure in its place. -/
def Datum.outcome : Except GraphError Datum → Datum
  | .ok d => d
  | .error e => e.report

end SymbolGraph
