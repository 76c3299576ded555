import SymbolGraph.Graph.Containment

/-!
# References and types

A type reference is one use of a type. Its element shows how the type is built, one level
deep: a class with arguments, a functional type with its parts, or the dynamic type.
Resolving a reference leads to the type itself and from there to the declaration behind it.
-/

namespace SymbolGraph

variable {σ : Type}

/-- Wraps the arguments of a type as uses of types. -/
def Query.typeArguments (owner : Option NodeId) :
    List (TypeArgument TypeKey) → Query σ (List (TypeArgument TypeReference))
  | [] => return []
  | argument :: arguments => do
    let first ← match argument with
      | .star => pure .star
      | .projection variance type => do
        pure (.projection variance (← primaryReference type owner))
    return first :: (← typeArguments owner arguments)

namespace TypeReference

def record (r : TypeReference) : Query σ TypeRecord := Query.request (·.type r.type)

/-- The text of the referenced type. -/
def render (r : TypeReference) : Query σ String := return (← r.record).text

/-- What a reference refers to by the shape of its type. A flexible type is shown by its lower bound,
which has to be a class type. -/
def elementOf (r : TypeReference) (type : TypeRecord) : Query σ (Option ReferenceElement) := do
  match type.shape with
  | .functional _ => return some (.callable (← Query.callableReference r.type r))
  | .dynamic => return some (.dynamic (← Query.dynamicReference r))
  | .classType .. => return some (.classifier (← Query.classifierReference r.type r))
  | .flexible lower _ =>
    -- One step down only: a bound that is flexible again is not looked into.
    match (← Query.request (·.type lower)).shape with
    | .classType .. => return some (.classifier (← Query.classifierReference lower r))
    | shape =>
      throw (.unexpectedShape s!"lower bound of flexible type `{type.rendered}`" "class type" shape)
  | .error | .classError _ | .typeParameter _ => return none
  | .intersection _ | .definitelyNotNull _ =>
    throw (.unexpectedShape s!"type reference `{type.rendered}`"
      "functional, dynamic, class, flexible, error or type parameter type" type.shape)

/-- The element of a reference. References that are written nowhere have none, and neither have
those to type parameters or to types in error. -/
def element (r : TypeReference) : Query σ (Option ReferenceElement) :=
  Query.memoize (r.id.cell .element) do
    if r.parent.isNone ∨ r.origin = .synthetic then return none
    r.elementOf (← r.record)

/-- The type referred to, or nothing if the type is in error or has no classifier. -/
def resolve (r : TypeReference) : Query σ (Option ResolvedType) := do
  match (← r.record).shape with
  | .error | .classError _ => return none
  | _ =>
    match ← Query.ask (·.classifier r.type) with
    | none => return none
    | some _ => return some (← Query.resolvedType r.type)

end TypeReference

/-! ## Elements -/

def ClassifierReference.referencedName (c : ClassifierReference) : String := shortName c.className

def ClassifierReference.typeArguments (c : ClassifierReference) :
    Query σ (List (TypeArgument TypeReference)) :=
  Query.memoize (c.id.cell .typeArguments) (Query.typeArguments c.id.node c.arguments)

namespace CallableReference

def receiverType (c : CallableReference) : Query σ (Option TypeReference) :=
  Query.memoize (c.id.cell .receiverType) do
    match c.shape.receiver with
    | some type => return some (← Query.primaryReference type c.id.node)
    | none => return none

def functionParameters (c : CallableReference) : Query σ (List TypeReference) :=
  Query.memoize (c.id.cell .functionParameters)
    (c.shape.parameters.mapM fun type => Query.primaryReference type c.id.node)

def returnType (c : CallableReference) : Query σ TypeReference :=
  Query.memoize (c.id.cell .returnType) (Query.primaryReference c.shape.returnType c.id.node)

end CallableReference

/-! ## Resolved types -/

namespace ResolvedType

def isFunctionType (t : ResolvedType) : Bool :=
  match t.type.shape with
  | .functional f => !f.isSuspend
  | _ => false

def isSuspendFunctionType (t : ResolvedType) : Bool :=
  match t.type.shape with
  | .functional f => f.isSuspend
  | _ => false

/-- The declaration that a type refers to. -/
def declaration (t : ResolvedType) : Query σ Declaration :=
  Query.memoize (t.id.cell .declaration) do
    match ← Query.ask (·.classifier t.key) with
    | some symbol => Query.declaration symbol
    | none =>
      throw (.unexpectedShape s!"type `{t.type.rendered}`" "type with a classifier" t.type.shape)

/-- The shape that the arguments of a type are taken from: that of its lower bound or its inner
type, one step down, or its own. -/
def argumentShape (t : ResolvedType) : Query σ TypeShape := do
  match t.type.shape with
  | .flexible lower _ => return (← Query.request (·.type lower)).shape
  | .definitelyNotNull inner => return (← Query.request (·.type inner)).shape
  | shape => return shape

def arguments (t : ResolvedType) : Query σ (List (TypeArgument TypeReference)) :=
  Query.memoize (t.id.cell .typeArguments) do
    match ← t.argumentShape with
    | .classType _ arguments => Query.typeArguments none arguments
    | .functional f => Query.typeArguments none f.arguments
    | _ => return []

/-- Whether a type has arguments and all of them are stars. -/
def isStarProjected (t : ResolvedType) : Query σ Bool := do
  let arguments ← t.arguments
  return !arguments.isEmpty && arguments.all TypeArgument.isStar

/-- A type, for messages. -/
def debugText (t : ResolvedType) : String :=
  s!"Type \x7b id: TypeId({t.id.index}), key: {t.key.text}, rendered: " ++ quoted t.type.rendered
    ++ ", .. \x7d"

end ResolvedType

end SymbolGraph
