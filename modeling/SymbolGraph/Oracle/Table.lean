import SymbolGraph.Oracle.Basic

/-!
# Symbol tables

A front end that holds everything it knows in memory. All of it is fixed except for the
return types of platform methods: one may be reported in a raw form until the front end is
told to settle it.
-/

namespace SymbolGraph

/-- The return types that are known, and the ones that wait to be settled. -/
structure ReturnTypes where
  known : Std.TreeMap SymbolKey TypeKey := {}
  deferred : Std.TreeMap SymbolKey TypeKey := {}

namespace ReturnTypes

/-- A deferred type becomes the known one; without one nothing changes. -/
def settle (types : ReturnTypes) (function : SymbolKey) : ReturnTypes :=
  match types.deferred[function]? with
  | some type =>
    { known := types.known.insert function type, deferred := types.deferred.erase function }
  | none => types

end ReturnTypes

/-- A class's type with its own type parameters as arguments, and with stars. -/
structure ClassTypes where
  own : TypeKey
  star : TypeKey
deriving DecidableEq

structure SymbolTable where
  files : Array FileRecord := #[]
  lineIndexes : Array LineIndex := #[]
  packages : Std.TreeMap String (List SymbolKey) := {}
  symbols : Array SymbolRecord := #[]
  types : Array TypeRecord := #[]
  annotations : Array AnnotationRecord := #[]
  /-- Expressions, with their values if they are constants. -/
  expressions : Array (Option Constant) := #[]
  classesByName : Std.TreeMap String SymbolKey := {}
  classTypes : Std.TreeMap SymbolKey ClassTypes := {}
  /-- Types whose classifier is not the one that their shape tells. -/
  classifiers : Std.TreeMap TypeKey SymbolKey := {}
  /-- The return types at the beginning. -/
  returnTypes : ReturnTypes := {}

namespace SymbolTable

/-- Follows lower bounds and inner types to a type that has a classifier or cannot have one. No
chain of distinct types is longer than the table, so `steps` bounds only chains that lead into
themselves; those have no classifier. -/
def classifierWithin (table : SymbolTable) : Nat → TypeKey → Option SymbolKey
  | 0, _ => none
  | steps + 1, type =>
    table.classifiers[type]?.or <|
      table.types[type.index]?.bind fun record =>
        match record.shape with
        | .classType className _ => table.classesByName[className]?
        | .functional functional => table.classesByName[functional.className]?
        | .typeParameter symbol => some symbol
        | .flexible lower _ => table.classifierWithin steps lower
        | .definitelyNotNull inner => table.classifierWithin steps inner
        | .classError _ | .dynamic | .error | .intersection _ => none

def classifier (table : SymbolTable) (type : TypeKey) : Option SymbolKey :=
  table.classifierWithin (table.types.size + 1) type

/-- Whether the return type of a function still waits to be settled. -/
def hasDeferredReturnType (types : ReturnTypes) (function : SymbolKey) : Bool :=
  types.deferred.contains function

/-- An answer that leaves the state alone. -/
def answer {α : Type} (found : Option α) (missing : OracleError) : Answer ReturnTypes α :=
  fun types => (found.elim (.error missing) .ok, types)

/-- Settles a return type, if `owner` is the container of the function. -/
def resolveInteropReturnType (table : SymbolTable) (function owner : SymbolKey) :
    Answer ReturnTypes Unit := fun types =>
  match table.symbols[function.index]? with
  | none => (.error (.unknownSymbol function), types)
  | some symbol =>
    if symbol.container = some owner then (.ok (), types.settle function)
    else (.error (.other s!"{function.text} is not declared in {owner.text}"), types)

/-- The table as a front end. -/
def oracle (table : SymbolTable) : Oracle ReturnTypes where
  newFiles := pure ((List.range table.files.size).map FileKey.mk)
  file key := answer table.files[key.index]? (.unknownFile key)
  declarationsInPackage package := pure (table.packages.getD package [])
  classByName name := pure table.classesByName[name]?
  symbol key := answer table.symbols[key.index]? (.unknownSymbol key)
  annotationUse key := answer table.annotations[key.index]? (.unknownAnnotationUse key)
  type key := answer table.types[key.index]? (.unknownType key)
  classifier type := pure (table.classifier type)
  classType key := answer (table.classTypes[key]?.map ClassTypes.own) (.unknownSymbol key)
  starProjectedType key := answer (table.classTypes[key]?.map ClassTypes.star) (.unknownSymbol key)
  returnType function := fun types => answer types.known[function]? (.unknownSymbol function) types
  resolveInteropReturnType := table.resolveInteropReturnType
  evaluateConstant expression := pure table.expressions[expression.index]?.join
  lineCol file offset := pure (table.lineIndexes[file.index]?.bind (·.lineCol offset))
  -- No chain of containers is longer without going in a circle.
  nesting := table.symbols.size

end SymbolTable

end SymbolGraph
