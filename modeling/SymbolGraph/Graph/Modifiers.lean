import SymbolGraph.Graph.Containment

/-!
# Modifiers of nodes
-/

namespace SymbolGraph

variable {σ : Type}

/-- The kinds of class that a reader tells apart. -/
inductive ClassCategory
  | plainClass
  | interface
  | enumClass
  | enumEntry
  | object
  | annotationClass
deriving DecidableEq

/-- Objects of every sort are one category. -/
def ClassKind.category : ClassKind → ClassCategory
  | plainClass => .plainClass
  | interface => .interface
  | enumClass => .enumClass
  | enumEntry => .enumEntry
  | object | companionObject | anonymousObject => .object
  | annotationClass => .annotationClass

/-- The category of a class, if its kind is known. -/
def ClassNode.category (c : ClassNode) : Query σ ClassCategory :=
  match c.details.kind with
  | some kind => return kind.category
  | none => throw (.inconsistency s!"class `{c.simpleName}`" "known class kind" "none")

def ClassNode.isCompanionObject (c : ClassNode) : Bool := c.details.kind == some .companionObject

/-! ## Declarations -/

namespace SymbolRecord

/-- The modifiers of a class of a known category. -/
def classModifiers (symbol : SymbolRecord) (flags : ClassFlags) (category : ClassCategory) :
    ModifierSet :=
  symbol.declaredModifiers
    |>.insertIf (category = .enumClass) .enumeration
    |>.insertIf (category = .annotationClass) .annotationClass
    |>.insertIf flags.isData .data
    |>.insertIf flags.isInner .inner
    |>.insertIf flags.isValue .value
    |>.insertIf flags.isFun .functional
    |>.insertIf flags.isExpect .expect
    |>.insertIf flags.isActual .actual

def functionModifiers (symbol : SymbolRecord) (flags : FunctionFlags) : ModifierSet :=
  symbol.declaredModifiers
    |>.insertIf flags.isExternal .external
    |>.insertIf flags.isInfix .infixCall
    |>.insertIf flags.isInline .inlined
    |>.insertIf flags.isStatic .platformStatic
    |>.insertIf flags.isSuspend .suspend
    |>.insertIf flags.isOperator .operator
    |>.insertIf flags.isOverride .overriding
    |>.insertIf flags.isTailrec .tailrec

def propertyModifiers (symbol : SymbolRecord) (flags : PropertyFlags) : ModifierSet :=
  symbol.declaredModifiers
    |>.insertIf flags.isConst .const
    |>.insertIf flags.isLateinit .lateinit
    |>.insertIf flags.isStatic .platformStatic
    |>.insertIf flags.isOverride .overriding
    |>.insertIf flags.isExternal .external

def typeParameterModifiers (symbol : SymbolRecord) (details : TypeParameterDetails) : ModifierSet :=
  (symbol.keywordModifiers.insertMany (Modifier.ofVariance? details.variance).toList)
    |>.insertIf details.isReified .reified

end SymbolRecord

def ClassNode.modifiers (c : ClassNode) : Query σ ModifierSet :=
  Query.memoize (c.id.cell .modifiers) do
    let category ← c.category
    return c.symbol.classModifiers c.details.flags category

def FunctionNode.modifiers (f : FunctionNode) : Query σ ModifierSet :=
  Query.memoize (f.id.cell .modifiers) do
    return f.symbol.functionModifiers f.details.flags

def PropertyNode.modifiers (p : PropertyNode) : Query σ ModifierSet :=
  Query.memoize (p.id.cell .modifiers) do
    return p.symbol.propertyModifiers p.details.flags

def TypeParameterNode.modifiers (p : TypeParameterNode) : Query σ ModifierSet :=
  Query.memoize (p.id.cell .modifiers) do
    return p.symbol.typeParameterModifiers p.details

def Declaration.modifiers : Declaration → Query σ ModifierSet
  | classLike d => d.modifiers
  | function d => d.modifiers
  | property d => d.modifiers
  | typeParameter d => d.modifiers

/-! ## Accessors and references -/

/-- The modifiers of an accessor: those written on it. One made by the compiler in an interface is
abstract besides. -/
def Accessor.modifiers (a : Accessor) (node : NodeId) : Query σ ModifierSet :=
  Query.memoize (node.cell .modifiers) do
    let written := a.symbol.keywordModifiers
    if a.symbol.accessorOrigin = .synthetic then
      let property ← Query.resolve a.receiver
      match ← (Declaration.property property).parentDeclaration with
      | some (.classLike c) => return written.insertIf ((← c.category) = .interface) .abstract
      | _ => return written
    else return written

def GetterNode.modifiers (g : GetterNode) : Query σ ModifierSet := g.toAccessor.modifiers g.id.node

def SetterNode.modifiers (s : SetterNode) : Query σ ModifierSet := s.toAccessor.modifiers s.id.node

/-- A reference to a functional type that suspends is marked so; no other reference is marked. -/
def TypeReference.modifiers (r : TypeReference) : Query σ ModifierSet :=
  Query.memoize (r.id.cell .modifiers) do
    let type ← Query.request (·.type r.type)
    match type.shape with
    | .functional f => return ModifierSet.insertIf ∅ f.isSuspend .suspend
    | _ => return ∅

end SymbolGraph
