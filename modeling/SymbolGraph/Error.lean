import SymbolGraph.Record.Type

/-!
# Errors

Why a question about the graph has no answer. Absent places and types that do not resolve
are ordinary answers and not found here.
-/

namespace SymbolGraph

/-- Why the front end did not answer. -/
inductive OracleError
  | unknownSymbol (key : SymbolKey)
  | unknownType (key : TypeKey)
  | unknownAnnotationUse (key : AnnotationKey)
  | unknownFile (key : FileKey)
  | other (text : String)
deriving DecidableEq

def OracleError.message : OracleError → String
  | unknownSymbol key => "unknown symbol " ++ key.text
  | unknownType key => "unknown type " ++ key.text
  | unknownAnnotationUse key => "unknown annotation " ++ key.text
  | unknownFile key => "unknown file " ++ key.text
  | other text => text

inductive GraphError
  /-- The front end reported something of a shape that the graph does not know. -/
  | inconsistency (context expected actual : String)
  /-- The question is left open on purpose. -/
  | notImplemented (what : String)
  /-- The handle was not issued by this session. -/
  | staleHandle (kind : String) (index : Nat)
  /-- The front end itself failed. -/
  | oracle (error : OracleError)
deriving DecidableEq

namespace GraphError

def message : GraphError → String
  | inconsistency context expected actual =>
    s!"internal consistency violation in {context}: expected {expected}, found {actual}"
  | notImplemented what => "not yet implemented: " ++ what
  | staleHandle kind index => s!"stale {kind} handle #{index}"
  | oracle error => "oracle query failed: " ++ error.message

def isInconsistency : GraphError → Bool
  | inconsistency .. => true
  | _ => false

def isNotImplemented : GraphError → Bool
  | notImplemented _ => true
  | _ => false

end GraphError

end SymbolGraph
