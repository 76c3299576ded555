import SymbolGraph.Graph.Containment

/-!
# Signatures

The types, parameters and accessors of declarations. Each is wrapped on demand from the
keys in the declaration's record.
-/

namespace SymbolGraph

variable {σ : Type}

namespace Query

/-- Wraps the type parameters of a declaration. -/
def typeParameters (owner : NodeId) (keys : List SymbolKey) : Query σ (List TypeParameterNode) :=
  memoize (owner.cell .typeParameters) (keys.mapM typeParameter)

/-- Wraps the extension receiver of a declaration, or the receiver of a functional type. -/
def receiverType (owner : NodeId) (type : Option TypeKey) : Query σ (Option TypeReference) :=
  memoize (owner.cell .receiverType) do
    match type with
    | some type => return some (← primaryReference type owner)
    | none => return none

/-- Wraps a list of types as references that know their positions in it, the first being at
`index`. -/
def entries (owner : NodeId) (index : Nat) : List TypeKey → Query σ (List TypeReference)
  | [] => return []
  | type :: types => do
    let first ← typeReference type owner index
    return first :: (← entries owner (index + 1) types)

end Query

/-! ## Classes and type parameters -/

def ClassNode.typeParameters (c : ClassNode) : Query σ (List TypeParameterNode) :=
  Query.typeParameters c.id.node c.details.typeParameters

def ClassNode.superTypes (c : ClassNode) : Query σ (List TypeReference) :=
  Query.memoize (c.id.cell .superTypes) (Query.entries c.id.node 0 c.details.supertypes)

/-- The first constructor. -/
def ClassNode.primaryConstructor (c : ClassNode) : Query σ (Option FunctionNode) := do
  match c.details.constructors with
  | [] => return none
  | key :: _ => return some (← Query.function key)

/-- Constructors first, then members. -/
def ClassNode.declarationKeys (c : ClassNode) : List SymbolKey :=
  c.details.constructors ++ c.details.members

/-- The type of the class with stars as arguments. -/
def ClassNode.starProjectedType (c : ClassNode) : Query σ ResolvedType := do
  Query.resolvedType (← Query.request (·.starProjectedType c.key))

def TypeParameterNode.bounds (p : TypeParameterNode) : Query σ (List TypeReference) :=
  Query.memoize (p.id.cell .bounds) (Query.entries p.id.node 0 p.details.bounds)

/-! ## Functions -/

namespace FunctionNode

/-- The function in an error message: with its container if that can be told, or else with where it
stands. -/
def context (f : FunctionNode) : Query σ String := do
  match f.symbol.container with
  | none => return s!"function `{f.simpleName}` ({f.symbol.kind.name})"
  | some container =>
    match ← Query.ask (·.symbol container) with
    | .ok outer => return s!"function `{f.simpleName}` declared in `{outer.displayName}`"
    | .error _ => return s!"function `{f.simpleName}` ({f.symbol.kind.name})"

def receiverType (f : FunctionNode) : Query σ (Option TypeReference) :=
  Query.receiverType f.id.node f.details.receiverType

def typeParameters (f : FunctionNode) : Query σ (List TypeParameterNode) :=
  Query.typeParameters f.id.node f.details.typeParameters

def parameters (f : FunctionNode) : Query σ (List ValueParameterNode) :=
  Query.memoize (f.id.cell .valueParameters)
    (f.details.valueParameters.mapM fun key => Query.valueParameter key f.id.node)

/-- Whether the return type has to be settled before it is read. -/
def needsSettling (f : FunctionNode) (config : Config) : Bool :=
  config.interopReturnTypeWorkaround && f.symbol.origin.isInterop && f.details.isInteropMethod

/-- Tells the front end to settle the return type against the declaring class. -/
def settle (f : FunctionNode) : Query σ Unit := do
  match f.symbol.container with
  | none => throw (.inconsistency (← f.context) "interop method with a declaring class" "no container")
  | some owner => Query.request (·.resolveInteropReturnType f.key owner)

/-- The key of the return type. Constructors return the type of their class with stars. -/
def returnTypeKey (f : FunctionNode) : Query σ TypeKey := do
  if f.details.isConstructor then
    let parent ← (Declaration.function f).parent
    match parent with
    | some ⟨.classLike, index⟩ =>
      let owner ← Query.resolve (⟨index⟩ : ClassId)
      Query.request (·.starProjectedType owner.key)
    -- A constructor right in a file, or in a function, is a fault of the front end.
    | other =>
      throw (.inconsistency (← f.context) "constructor declared in a class" (NodeId.optionText other))
  else Query.request (·.returnType f.key)

/-- Has the return type settled if that has to be done before it is read. -/
def prepare (f : FunctionNode) : Query σ Unit := do
  if f.needsSettling (← read).config then f.settle

def returnType (f : FunctionNode) : Query σ TypeReference :=
  Query.memoize (f.id.cell .returnType) do
    f.prepare
    Query.primaryReference (← f.returnTypeKey) f.id.node

/-- The declarations among the statements of the body. -/
def declarationKeys (f : FunctionNode) : List SymbolKey :=
  (f.symbol.source.map Source.localDeclarations).getD []

end FunctionNode

/-! ## Properties, accessors and parameters -/

namespace PropertyNode

def type (p : PropertyNode) : Query σ TypeReference :=
  Query.memoize (p.id.cell .type) (Query.primaryReference p.details.type p.id.node)

def receiverType (p : PropertyNode) : Query σ (Option TypeReference) :=
  Query.receiverType p.id.node p.details.receiverType

def getter (p : PropertyNode) : Query σ (Option GetterNode) :=
  Query.memoize (p.id.cell .getter) do
    match p.details.getter with
    | some key => return some (← Query.getter p.id key)
    | none => return none

def setter (p : PropertyNode) : Query σ (Option SetterNode) :=
  Query.memoize (p.id.cell .setter) do
    match p.details.setter with
    | some key => return some (← Query.setter p.id key)
    | none => return none

def typeParameters (p : PropertyNode) : Query σ (List TypeParameterNode) :=
  Query.typeParameters p.id.node p.details.typeParameters

end PropertyNode

def GetterNode.returnType (g : GetterNode) : Query σ TypeReference :=
  Query.memoize (g.id.cell .returnType) (Query.primaryReference g.returnTypeKey g.id.node)

/-- The single value parameter of a setter. -/
def SetterNode.parameter (s : SetterNode) : Query σ ValueParameterNode :=
  Query.memoize (s.id.cell .parameter) do
    match s.parameterKey with
    | some key => Query.valueParameter key s.id.node
    | none => throw (.inconsistency s!"setter of {s.receiver.node.idText}"
        "setter with a value parameter" "no parameter")

def ValueParameterNode.type (p : ValueParameterNode) : Query σ TypeReference :=
  Query.memoize (p.id.cell .type) (Query.primaryReference p.details.type p.id.node)

/-! ## What a function is -/

inductive FunctionCategory
  | member
  | topLevel
  /-- The constructor of an interface with a single method. -/
  | lambda
deriving DecidableEq

namespace FunctionNode

/-- Functions local to a body have no category. -/
def category (f : FunctionNode) : Query σ FunctionCategory := do
  match f.symbol.kind with
  | .classMember => return .member
  | .topLevel => return .topLevel
  | .samConstructor => return .lambda
  | other => throw (.inconsistency (← f.context) "class member, top-level or SAM constructor" other.name)

def isAbstract (f : FunctionNode) : Bool := f.symbol.modality == some .abstract

/-- The function that this one overrides. -/
def overridden (_ : FunctionNode) : Query σ (Option Declaration) :=
  throw (.notImplemented "find_overridee")

/-- The type of the function seen as a member of a type. -/
def asMemberOf (_ : FunctionNode) (_ : ResolvedType) : Query σ ResolvedType :=
  throw (.notImplemented "as_member_of")

end FunctionNode

end SymbolGraph
