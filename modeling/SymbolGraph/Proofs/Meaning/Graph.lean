import SymbolGraph.Graph.Place
import SymbolGraph.Proofs.Graph.Regular
import SymbolGraph.Proofs.Meaning.World
import SymbolGraph.Proofs.Session.Operation

/-!
# The graph of a world

What the fields of an entity mean: the same questions that a session answers, answered from
the table at once. Nothing is looked up twice and nothing is remembered, so an answer does
not depend on what was asked before.
-/

namespace SymbolGraph

variable {α : Type} {kind : Kind}

/-! ## Entities under a node that may be missing -/

namespace Entity

def reference (type : TypeKey) (parent : Option NodeEntity) (index : Int) :
    Entity (.node .typeReference) :=
  match parent with
  | some n => .typeReference type n.entity index
  | none => .looseReference type index

def annotationOn (key : AnnotationKey) (bearer : Option NodeEntity) : Entity (.node .annotationUse) :=
  match bearer with
  | some n => .annotationUse key n.entity
  | none => .looseAnnotationUse key

end Entity

/-- A wrapper as a declaration, if it is one. -/
def NodeKind.declaration? : (kind : NodeKind) → kind.Wrapper → Option Declaration
  | .classLike, (w : ClassNode) => some (.classLike w)
  | .function, (w : FunctionNode) => some (.function w)
  | .property, (w : PropertyNode) => some (.property w)
  | .typeParameter, (w : TypeParameterNode) => some (.typeParameter w)
  | _, _ => none

/-- The entity of a declaration. -/
def Declaration.entity : Declaration → NodeEntity
  | classLike d => ⟨.classLike, .classLike d.key⟩
  | function d => ⟨.function, .function d.key⟩
  | property d => ⟨.property, .property d.key⟩
  | typeParameter d => ⟨.typeParameter, .typeParameter d.key⟩

namespace World

variable (world : World)

/-! ## Containment -/

def origin (n : NodeEntity) : Meaning Origin := do
  return n.kind.origin (← n.entity.portrait world)

/-- A symbol that is a declaration of any sort. -/
def declaration (key : SymbolKey) : Meaning NodeEntity := do
  let symbol ← world.inquire (.symbol key)
  match symbol.details with
  | .classLike _ => return (← world.wrap (.classLike key)).node
  | .function _ => return (← world.wrap (.function key)).node
  | .property _ => return (← world.wrap (.property key)).node
  | .typeParameter _ => return (← world.wrap (.typeParameter key)).node
  | .getter _ | .setter _ | .valueParameter _ =>
    throw (.plain (.unexpectedSymbol symbol "declaration"))

/-- The node around a symbol. -/
def containerNode (symbol : SymbolRecord) : Meaning (Option NodeEntity) := do
  match symbol.container with
  | none =>
    match symbol.file with
    | some file => return some (← world.wrap (.file file)).node
    | none => return none
  | some container =>
    let outer ← world.inquire (.symbol container)
    let property : Meaning SymbolKey :=
      match outer.container with
      | some property => do
        let _ ← world.wrap (.property property)
        return property
      | none => throw (.plain (.inconsistency s!"accessor container of `{symbol.displayName}`"
          "accessor owned by a property" "accessor without property"))
    match outer.details with
    | .getter _ => return some (← world.wrap (.getter (← property) container)).node
    | .setter _ => return some (← world.wrap (.setter (← property) container)).node
    | _ => return some (← world.declaration container)

def parentDeclaration (symbol : SymbolRecord) : Meaning (Option NodeEntity) := do
  match ← world.containerNode symbol with
  | some parent => return if parent.kind.isDeclaration then some parent else none
  | none => return none

/-- The portrait of a node as a declaration, if it is one. -/
def declared (n : NodeEntity) : Meaning (Option Declaration) := do
  return n.kind.declaration? (← n.entity.portrait world)

/-- The qualified name of a declaration, given how the declaration around it is named. -/
def nameUnder (d : Declaration) (nameOf : Declaration → Meaning (Option String)) :
    Meaning (Option String) := do
  if d.symbol.kind = .inBody then return none
  match ← world.containerNode d.symbol with
  | none => return some (packageQualified d.packageName d.simpleName)
  | some parent =>
    if parent.kind = .file then return some (packageQualified d.packageName d.simpleName)
    match ← world.declared parent with
    | none => return none
    | some outer => return (← nameOf outer).map fun name => name ++ "." ++ d.simpleName

def qualifiedNameWithin : Nat → Declaration → Meaning (Option String)
  | 0, d => world.nameUnder d fun _ =>
    throw (.plain (.inconsistency s!"qualified name of `{d.simpleName}`"
      "finite chain of containers" "symbol that contains itself"))
  | depth + 1, d => world.nameUnder d (qualifiedNameWithin depth)

def qualifiedName (d : Declaration) : Meaning (Option String) :=
  world.qualifiedNameWithin world.table.symbols.size d

/-! ## Annotations -/

def wrapAnnotations (bearer : Option NodeEntity) (keys : List AnnotationKey) :
    Meaning (List (Entity (.node .annotationUse))) :=
  keys.mapM fun key => world.wrap (.annotationOn key bearer)

/-- The annotations whose target is wanted. -/
def selectAnnotations (bearer : NodeEntity) (wanted : Option UseSiteTarget → Bool) :
    List AnnotationKey → Meaning (List (Entity (.node .annotationUse)))
  | [] => return []
  | key :: keys => do
    let record ← world.inquire (.annotationUse key)
    if wanted record.target then
      let first ← world.wrap (.annotationUse key bearer.entity)
      return first :: (← selectAnnotations bearer wanted keys)
    else selectAnnotations bearer wanted keys

def declarationAnnotations (d : Declaration) : Meaning (List (Entity (.node .annotationUse))) :=
  let wanted : Option UseSiteTarget → Bool :=
    match d with
    | .property _ => fun target => !target.any UseSiteTarget.isAccessor
    | _ => fun _ => true
  world.selectAnnotations d.entity wanted d.symbol.annotations

/-- The annotations of an accessor of a property. -/
def accessorAnnotations (a : Accessor) (bearer : NodeEntity) (receiver : SymbolKey)
    (excluded pulled : UseSiteTarget) : Meaning (List (Entity (.node .annotationUse))) := do
  let own ← world.selectAnnotations bearer (· ≠ some excluded) a.symbol.annotations
  let property : PropertyNode ← (Entity.property receiver).portrait world
  let pulled ← world.selectAnnotations bearer (· = some pulled) property.symbol.annotations
  return own ++ pulled

/-- The annotations of a value parameter. -/
def parameterAnnotations (p : ValueParameterNode) (bearer : NodeEntity) {owner : NodeKind}
    (parent : Entity (.node owner)) : Meaning (List (Entity (.node .annotationUse))) := do
  let own ← world.wrapAnnotations bearer p.symbol.annotations
  match owner, parent with
  | .setter, .setter receiver _ =>
    let property : PropertyNode ← (Entity.property receiver).portrait world
    let pulled ← world.selectAnnotations bearer (· = some .setterParameter)
      property.symbol.annotations
    return own ++ pulled
  | _, _ => return own

/-! ## Modifiers and documentation -/

def category (c : ClassNode) : Meaning ClassCategory :=
  match c.details.kind with
  | some kind => return kind.category
  | none => throw (.plain (.inconsistency s!"class `{c.simpleName}`" "known class kind" "none"))

def accessorModifiers (a : Accessor) (receiver : SymbolKey) : Meaning ModifierSet := do
  let written := a.symbol.keywordModifiers
  if a.symbol.accessorOrigin = .synthetic then
    let property : PropertyNode ← (Entity.property receiver).portrait world
    match ← world.parentDeclaration property.symbol with
    | some ⟨.classLike, c⟩ =>
      let c : ClassNode ← c.portrait world
      return written.insertIf ((← category c) = .interface) .abstract
    | _ => return written
  else return written

def referenceModifiers (r : TypeReference) : Meaning ModifierSet := do
  let type ← world.inquire (.type r.type)
  match type.shape with
  | .functional f => return ModifierSet.insertIf ∅ f.isSuspend .suspend
  | _ => return ∅

def functionDocString (f : FunctionNode) : Meaning (Option String) := do
  if f.isSyntheticConstructor then
    match ← world.containerNode f.symbol with
    | some ⟨.classLike, c⟩ =>
      let c : ClassNode ← c.portrait world
      return c.symbol.doc
    | _ => return none
  else return f.symbol.doc

/-! ## Signatures -/

def primaryReference (type : TypeKey) (parent : Option NodeEntity) :
    Meaning (Entity (.node .typeReference)) :=
  world.wrap (.reference type parent (-1))

def receiverType (owner : NodeEntity) (type : Option TypeKey) :
    Meaning (Option (Entity (.node .typeReference))) := do
  match type with
  | some type => return some (← world.primaryReference type owner)
  | none => return none

def entries (owner : NodeEntity) (index : Nat) :
    List TypeKey → Meaning (List (Entity (.node .typeReference)))
  | [] => return []
  | type :: types => do
    let first ← world.wrap (.reference type owner index)
    return first :: (← entries owner (index + 1) types)

def typeParameters (keys : List SymbolKey) : Meaning (List (Entity (.node .typeParameter))) :=
  keys.mapM fun key => world.wrap (.typeParameter key)

def parameters (owner : NodeEntity) (keys : List SymbolKey) :
    Meaning (List (Entity (.node .valueParameter))) :=
  keys.mapM fun key => world.wrap (.valueParameter key owner.entity)

/-- A function in an error message. -/
def context (f : FunctionNode) : String :=
  match f.symbol.container with
  | none => s!"function `{f.simpleName}` ({f.symbol.kind.name})"
  | some container =>
    match world.peek (.symbol container) with
    | .ok outer => s!"function `{f.simpleName}` declared in `{outer.displayName}`"
    | .error _ => s!"function `{f.simpleName}` ({f.symbol.kind.name})"

/-- The return type that the table has for a function once it is settled. -/
def settledType (function : SymbolKey) : Option TypeKey :=
  world.table.returnTypes.deferred[function]?.or world.table.returnTypes.known[function]?

/-- The return type that a session finds for a function. -/
def foundType (f : FunctionNode) : Option TypeKey :=
  if f.needsSettling world.config then world.settledType f.key
  else world.table.returnTypes.known[f.key]?

def returnTypeKey (f : FunctionNode) : Meaning TypeKey := do
  if f.details.isConstructor then
    match ← world.containerNode f.symbol with
    | some ⟨.classLike, .classLike key⟩ => world.inquire (.starProjectedType key)
    | other => throw (.noClass (world.context f) other)
  else
    match world.foundType f with
    | some type => return type
    | none => throw (.plain (.oracle (.unknownSymbol f.key)))

/-- The return type of a function outside of classes cannot be settled. -/
def prepare (f : FunctionNode) : Meaning Unit :=
  if f.needsSettling world.config ∧ f.symbol.container = none then
    throw (.plain (.inconsistency (world.context f) "interop method with a declaring class"
      "no container"))
  else return ()

def returnType (f : FunctionNode) : Meaning (Entity (.node .typeReference)) := do
  world.prepare f
  world.primaryReference (← world.returnTypeKey f) (Entity.function f.key).node

def functionCategory (f : FunctionNode) : Meaning FunctionCategory :=
  match f.symbol.kind with
  | .classMember => return .member
  | .topLevel => return .topLevel
  | .samConstructor => return .lambda
  | other => throw (.plain (.inconsistency (world.context f)
      "class member, top-level or SAM constructor" other.name))

def getter (p : PropertyNode) : Meaning (Option (Entity (.node .getter))) := do
  match p.details.getter with
  | some key => return some (← world.wrap (.getter p.key key))
  | none => return none

def setter (p : PropertyNode) : Meaning (Option (Entity (.node .setter))) := do
  match p.details.setter with
  | some key => return some (← world.wrap (.setter p.key key))
  | none => return none

def setterParameter (e : Entity (.node .setter)) (s : SetterNode) :
    Meaning (Entity (.node .valueParameter)) := do
  match s.parameterKey, e with
  | some key, e => world.wrap (.valueParameter key e)
  | none, .setter receiver _ => throw (.noParameter receiver)

/-! ## Types -/

def typeArguments (owner : Option NodeEntity) :
    List (TypeArgument TypeKey) → Meaning (List (TypeArgument (Entity (.node .typeReference))))
  | [] => return []
  | argument :: arguments => do
    let first ← match argument with
      | .star => pure .star
      | .projection variance type => do
        pure (.projection variance (← world.primaryReference type owner))
    return first :: (← typeArguments owner arguments)

def elementOf (e : Entity (.node .typeReference)) (r : TypeReference) (type : TypeRecord) :
    Meaning (Option NodeEntity) := do
  match type.shape with
  | .functional _ => return some (← world.wrap (.callableReference r.type e)).node
  | .dynamic => return some (← world.wrap (.dynamicReference e)).node
  | .classType .. => return some (← world.wrap (.classifierReference r.type e)).node
  | .flexible lower _ =>
    match (← world.inquire (.type lower)).shape with
    | .classType .. => return some (← world.wrap (.classifierReference lower e)).node
    | shape => throw (.plain
      (.unexpectedShape s!"lower bound of flexible type `{type.rendered}`" "class type" shape))
  | .error | .classError _ | .typeParameter _ => return none
  | .intersection _ | .definitelyNotNull _ => throw (.plain
    (.unexpectedShape s!"type reference `{type.rendered}`"
      "functional, dynamic, class, flexible, error or type parameter type" type.shape))

def element (e : Entity (.node .typeReference)) (r : TypeReference) :
    Meaning (Option NodeEntity) := do
  if r.parent.isNone ∨ r.origin = .synthetic then return none
  world.elementOf e r (← world.inquire (.type r.type))

def render (r : TypeReference) : Meaning String := do
  return (← world.inquire (.type r.type)).text

def resolve (r : TypeReference) : Meaning (Option (Entity .resolvedType)) := do
  match (← world.inquire (.type r.type)).shape with
  | .error | .classError _ => return none
  | _ =>
    match world.glance (.classifier r.type) with
    | none => return none
    | some _ => return some (← world.wrap (.resolvedType r.type))

def typeDeclaration (t : ResolvedType) : Meaning NodeEntity := do
  match world.glance (.classifier t.key) with
  | some symbol => world.declaration symbol
  | none => throw (.plain
    (.unexpectedShape s!"type `{t.type.rendered}`" "type with a classifier" t.type.shape))

def argumentShape (t : ResolvedType) : Meaning TypeShape := do
  match t.type.shape with
  | .flexible lower _ => return (← world.inquire (.type lower)).shape
  | .definitelyNotNull inner => return (← world.inquire (.type inner)).shape
  | shape => return shape

def resolvedArguments (t : ResolvedType) :
    Meaning (List (TypeArgument (Entity (.node .typeReference)))) := do
  match ← world.argumentShape t with
  | .classType _ arguments => world.typeArguments none arguments
  | .functional f => world.typeArguments none f.arguments
  | _ => return []

/-! ## Arguments of annotations -/

def writtenArguments (e : Entity (.node .annotationUse)) (position : Nat) :
    List ArgumentRecord → Meaning (List (Entity (.node .valueArgument)))
  | [] => return []
  | _ :: arguments => do
    let first ← world.wrap (.valueArgument e (.written position))
    return first :: (← writtenArguments e (position + 1) arguments)

def soleConstructor (a : AnnotationNode) : Meaning (Option SymbolRecord) := do
  match a.record.className with
  | none => return none
  | some className =>
    match world.glance (.classByName className) with
    | none => return none
    | some key =>
      let symbol ← world.inquire (.symbol key)
      match symbol.details with
      | .classLike details =>
        match details.constructors with
        | [constructor] => return some (← world.inquire (.symbol constructor))
        | _ => return none
      | details => throw (.plain
        (.inconsistency s!"annotation class `{className}`" "class" details.describe))

def parametersOf (a : AnnotationNode) (constructor : SymbolRecord) :
    Meaning (List (SymbolKey × SymbolRecord)) := do
  match constructor.details with
  | .function details => details.valueParameters.mapM fun key => do
    return (key, ← world.inquire (.symbol key))
  | details => throw (.plain
    (.inconsistency s!"constructor of annotation `{a.shortName}`" "function" details.describe))

def defaultsFor (e : Entity (.node .annotationUse)) (covered : List String) :
    List (SymbolKey × SymbolRecord) → Meaning (List (Entity (.node .valueArgument)))
  | [] => return []
  | (key, parameter) :: parameters => do
    match parameter.name with
    | none => defaultsFor e covered parameters
    | some name =>
      if name ∈ covered then defaultsFor e covered parameters
      else
        match ← world.defaultValue parameter with
        | none => defaultsFor e covered parameters
        | some _ =>
          let first ← world.wrap (.valueArgument e (.default key))
          return first :: (← defaultsFor e covered parameters)

def arguments (e : Entity (.node .annotationUse)) (a : AnnotationNode) :
    Meaning (List (Entity (.node .valueArgument))) := do
  let written ← world.writtenArguments e 0 a.record.arguments
  match ← world.soleConstructor a with
  | none => return written
  | some constructor =>
    let parameters ← world.parametersOf a constructor
    let covered := AnnotationNode.coveredNames parameters 0 a.record.arguments
    return written ++ (← world.defaultsFor e covered parameters)

def annotationType (e : Entity (.node .annotationUse)) (a : AnnotationNode) :
    Meaning (Option (Entity (.node .typeReference))) := do
  match a.record.className with
  | none => return none
  | some className =>
    match world.glance (.classByName className) with
    | none => return none
    | some key =>
      return some (← world.primaryReference (← world.inquire (.classType key)) e.node)

end World

end SymbolGraph
