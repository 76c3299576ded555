import SymbolGraph.Record.Source
import SymbolGraph.Record.Constant

/-!
# Annotation and file records

What a front end reports about one application of an annotation, and about one source file.
-/

namespace SymbolGraph

/-- The part of a declaration that an annotation is aimed at. -/
inductive UseSiteTarget
  | file
  | property
  | field
  | getter
  | setter
  | receiver
  | parameter
  | setterParameter
  | delegate
deriving DecidableEq

/-- The value of an annotation argument. -/
inductive AnnotationValue
  | constant (value : Constant)
  | array (values : List AnnotationValue)
  | annotationUse (key : AnnotationKey)
  | classLiteral (type : TypeKey)
  | enumEntry (name : String)
  | unsupported

/-- An argument as written, by name or by position. -/
structure ArgumentRecord where
  name : Option String
  value : AnnotationValue

/-- One application of an annotation as reported. -/
structure AnnotationRecord where
  /-- The qualified name of the annotation class, if it was resolved. -/
  className : Option String
  target : Option UseSiteTarget := none
  arguments : List ArgumentRecord := []
  position : Option Position := none

/-- One source file as reported. -/
structure FileRecord where
  path : String
  package : String
  declarations : List SymbolKey := []
  annotations : List AnnotationKey := []
deriving DecidableEq

/-- The last segment of the path, whichever way its slashes lean. -/
def FileRecord.name (file : FileRecord) : String :=
  String.ofList (file.path.toList.reverse.takeWhile fun c => c ≠ '/' ∧ c ≠ '\\').reverse

end SymbolGraph
