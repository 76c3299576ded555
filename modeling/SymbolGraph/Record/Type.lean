import SymbolGraph.Record.Symbol

/-!
# Type records

What a front end reports about one type.
-/

namespace SymbolGraph

/-- An argument of a generic type, over whatever stands for a type. -/
inductive TypeArgument (α : Type)
  | star
  | projection (variance : Variance) (type : α)
deriving DecidableEq

namespace TypeArgument

variable {α : Type}

def isStar : TypeArgument α → Bool
  | star => true
  | projection .. => false

/-- The type of the argument, unless it is a star. -/
def type? : TypeArgument α → Option α
  | star => none
  | projection _ type => some type

end TypeArgument

/-- The parts of a functional type. -/
structure FunctionalType where
  className : String
  arguments : List (TypeArgument TypeKey) := []
  isSuspend : Bool := false
  receiver : Option TypeKey := none
  parameters : List TypeKey := []
  returnType : TypeKey
deriving DecidableEq

/-- The structure of a type. Classes are named by their qualified names. -/
inductive TypeShape
  | classType (className : String) (arguments : List (TypeArgument TypeKey))
  /-- A class type whose class was not found. -/
  | classError (className : String)
  | functional (type : FunctionalType)
  | dynamic
  | flexible (lower upper : TypeKey)
  | typeParameter (symbol : SymbolKey)
  | error
  | intersection (parts : List TypeKey)
  | definitelyNotNull (inner : TypeKey)
deriving DecidableEq

def TypeShape.describe : TypeShape → String
  | classType .. => "class type"
  | classError _ => "class error type"
  | functional _ => "functional type"
  | dynamic => "dynamic type"
  | flexible .. => "flexible type"
  | typeParameter _ => "type parameter type"
  | error => "error type"
  | intersection _ => "intersection type"
  | definitelyNotNull _ => "definitely non-null type"

/-- One type as reported. -/
structure TypeRecord where
  shape : TypeShape
  /-- The text of the type, without a mark for nullability. -/
  rendered : String
  nullable : Bool := false
  annotations : List AnnotationKey := []
deriving DecidableEq

/-- The part of a dotted name after its last dot. -/
def shortName (name : String) : String :=
  String.ofList (name.toList.reverse.takeWhile (· ≠ '.')).reverse

/-- A class type without arguments, shown by its short name. -/
def TypeRecord.ofClass (className : String) : TypeRecord where
  shape := .classType className []
  rendered := shortName className

/-- The text of the type, a nullable one being marked. -/
def TypeRecord.text (type : TypeRecord) : String :=
  if type.nullable then type.rendered ++ "?" else type.rendered

end SymbolGraph
