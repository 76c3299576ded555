import SymbolGraph.Graph.Containment

/-!
# Arguments of annotations

The arguments of an annotation are those written, and then the defaults of the parameters
that no written argument covers. A named argument covers the parameter of that name, and a
positional one the parameter at its position. Defaults are known only if the class of the
annotation is known and has exactly one constructor.
-/

namespace SymbolGraph

variable {σ : Type}

namespace AnnotationNode

def qualifiedName (a : AnnotationNode) : Option String := a.record.className

/-- The name of the annotation class without its package. -/
def shortName (a : AnnotationNode) : String := (a.qualifiedName.map SymbolGraph.shortName).getD "<error>"

/-- The arguments as written. -/
def writtenArguments (a : AnnotationNode) (position : Nat) :
    List ArgumentRecord → Query σ (List ArgumentNode)
  | [] => return []
  | argument :: arguments => do
    let first ← Query.valueArgument a.id (.written position) argument.name argument.value .source
      a.record.position
    return first :: (← a.writtenArguments (position + 1) arguments)

/-- The record of the only constructor of the annotation class, if the class is known and has just
one. -/
def soleConstructor (a : AnnotationNode) : Query σ (Option SymbolRecord) := do
  match a.record.className with
  | none => return none
  | some className =>
    match ← Query.ask (·.classByName className) with
    | none => return none
    | some key =>
      let symbol ← Query.request (·.symbol key)
      match symbol.details with
      | .classLike details =>
        match details.constructors with
        | [constructor] => return some (← Query.request (·.symbol constructor))
        | _ => return none
      | details =>
        throw (.inconsistency s!"annotation class `{className}`" "class" details.describe)

/-- The parameters of a constructor, with their records. -/
def parametersOf (a : AnnotationNode) (constructor : SymbolRecord) :
    Query σ (List (SymbolKey × SymbolRecord)) := do
  match constructor.details with
  | .function details => details.valueParameters.mapM fun key => do
    return (key, ← Query.request (·.symbol key))
  | details =>
    throw (.inconsistency s!"constructor of annotation `{a.shortName}`" "function" details.describe)

/-- The names of the parameters that written arguments cover, the first argument being at a
position. -/
def coveredNames (parameters : List (SymbolKey × SymbolRecord)) :
    Nat → List ArgumentRecord → List String
  | _, [] => []
  | position, argument :: arguments =>
    let name := argument.name.or (parameters[position]?.bind (·.2.name))
    name.toList ++ coveredNames parameters (position + 1) arguments

/-- The constant that a parameter has by default, if it declares one and it is a constant. -/
def defaultValue (parameter : SymbolRecord) : Query σ (Option Constant) := do
  match parameter.source with
  | none => return none
  | some source =>
    match source.form with
    | .native =>
      match source.defaultValue with
      | none => return none
      | some expression => Query.ask (·.evaluateConstant expression)
    | other =>
      throw (.inconsistency s!"default value of parameter `{parameter.displayName}`"
        "native parameter syntax" other.text)

/-- The arguments made from the defaults of the named parameters that are not covered. -/
def defaultsFor (a : AnnotationNode) (covered : List String) :
    List (SymbolKey × SymbolRecord) → Query σ (List ArgumentNode)
  | [] => return []
  | (key, parameter) :: parameters => do
    match parameter.name with
    | none => a.defaultsFor covered parameters
    | some name =>
      if name ∈ covered then a.defaultsFor covered parameters
      else
        match ← defaultValue parameter with
        | none => a.defaultsFor covered parameters
        | some value =>
          let first ← Query.valueArgument a.id (.default key) name (.constant value) .synthetic none
          return first :: (← a.defaultsFor covered parameters)

def arguments (a : AnnotationNode) : Query σ (List ArgumentNode) :=
  Query.memoize (a.id.cell .arguments) do
    let written ← a.writtenArguments 0 a.record.arguments
    match ← a.soleConstructor with
    | none => return written
    | some constructor =>
      let parameters ← a.parametersOf constructor
      let covered := coveredNames parameters 0 a.record.arguments
      return written ++ (← a.defaultsFor covered parameters)

/-- The default arguments by themselves. -/
def defaultArguments (_ : AnnotationNode) : Query σ (List ArgumentNode) :=
  throw (.notImplemented "default_arguments")

/-- The class of the annotation as a type, if the class is known. -/
def annotationType (a : AnnotationNode) : Query σ (Option TypeReference) :=
  Query.memoize (a.id.cell .annotationType) do
    match a.record.className with
    | none => return none
    | some className =>
      match ← Query.ask (·.classByName className) with
      | none => return none
      | some key =>
        return some (← Query.primaryReference (← Query.request (·.classType key)) a.id.node)

end AnnotationNode

end SymbolGraph
