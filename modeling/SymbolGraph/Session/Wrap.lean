import SymbolGraph.Session.Query
import SymbolGraph.Text.LineIndex
import SymbolGraph.Text.Quoted

/-!
# Wrapping

How a session turns keys into wrappers. A wrapper is created from the front end's record
on the first request for its key, provided that the record is of the right sort; later
requests do not ask the front end again.
-/

namespace SymbolGraph

variable {σ : Type}

/-! ## Messages -/

/-- A symbol of the wrong sort. -/
def GraphError.unexpectedSymbol (symbol : SymbolRecord) (expected : String) : GraphError :=
  .inconsistency s!"symbol `{symbol.displayName}` ({symbol.kind.name})" expected
    symbol.details.describe

/-- A type of the wrong shape. -/
def GraphError.unexpectedShape (context expected : String) (shape : TypeShape) : GraphError :=
  .inconsistency context expected shape.describe

def SourceForm.text : SourceForm → String
  | native => "Native"
  | interop => "Interop"
  | other text => "Other(" ++ quoted text ++ ")"

namespace Query

/-! ## Files and symbols -/

def file (key : FileKey) : Query σ FileNode :=
  wrap (.node .file) key do
    let file ← request (·.file key)
    return fun id => { id, key, file }

def classLike (key : SymbolKey) : Query σ ClassNode :=
  wrap (.node .classLike) key do
    let symbol ← request (·.symbol key)
    match symbol.details with
    | .classLike details => return fun id => { key, symbol, id, details }
    | _ => throw (.unexpectedSymbol symbol "class")

def function (key : SymbolKey) : Query σ FunctionNode :=
  wrap (.node .function) key do
    let symbol ← request (·.symbol key)
    match symbol.details with
    | .function details => return fun id => { key, symbol, id, details }
    | _ => throw (.unexpectedSymbol symbol "function")

def property (key : SymbolKey) : Query σ PropertyNode :=
  wrap (.node .property) key do
    let symbol ← request (·.symbol key)
    match symbol.details with
    | .property details => return fun id => { key, symbol, id, details }
    | _ => throw (.unexpectedSymbol symbol "property")

def getter (receiver : PropertyId) (key : SymbolKey) : Query σ GetterNode :=
  wrap (.node .getter) { receiver, symbol := key } do
    let symbol ← request (·.symbol key)
    match symbol.details with
    | .getter returnTypeKey => return fun id => { key, symbol, receiver, id, returnTypeKey }
    | _ => throw (.unexpectedSymbol symbol "getter")

def setter (receiver : PropertyId) (key : SymbolKey) : Query σ SetterNode :=
  wrap (.node .setter) { receiver, symbol := key } do
    let symbol ← request (·.symbol key)
    match symbol.details with
    | .setter parameterKey => return fun id => { key, symbol, receiver, id, parameterKey }
    | _ => throw (.unexpectedSymbol symbol "setter")

def valueParameter (key : SymbolKey) (parent : NodeId) : Query σ ValueParameterNode :=
  wrap (.node .valueParameter) { symbol := key, parent } do
    let symbol ← request (·.symbol key)
    match symbol.details with
    | .valueParameter details => return fun id => { key, symbol, id, details, parent }
    | _ => throw (.unexpectedSymbol symbol "value parameter")

def typeParameter (key : SymbolKey) : Query σ TypeParameterNode :=
  wrap (.node .typeParameter) key do
    let symbol ← request (·.symbol key)
    match symbol.details with
    | .typeParameter details => return fun id => { key, symbol, id, details }
    | _ => throw (.unexpectedSymbol symbol "type parameter")

/-- Wraps a symbol that is a declaration of any sort. -/
def declaration (key : SymbolKey) : Query σ Declaration := do
  let symbol ← request (·.symbol key)
  match symbol.details with
  | .classLike _ => return .classLike (← classLike key)
  | .function _ => return .function (← function key)
  | .property _ => return .property (← property key)
  | .typeParameter _ => return .typeParameter (← typeParameter key)
  | .getter _ | .setter _ | .valueParameter _ => throw (.unexpectedSymbol symbol "declaration")

/-- The declaration behind a node, if the node is one. -/
def nodeDeclaration (node : NodeId) : Query σ (Option Declaration) := do
  match node.kind with
  | .classLike => return some (.classLike (← resolve (⟨node.index⟩ : ClassId)))
  | .function => return some (.function (← resolve (⟨node.index⟩ : FunctionId)))
  | .property => return some (.property (← resolve (⟨node.index⟩ : PropertyId)))
  | .typeParameter => return some (.typeParameter (← resolve (⟨node.index⟩ : TypeParameterId)))
  | _ => return none

/-! ## Origins -/

end Query

/-- Where a node of a kind comes from. -/
def NodeKind.origin : (kind : NodeKind) → kind.Wrapper → Origin
  | .file, _ => .source
  | .classLike, (w : ClassNode) => w.symbol.origin
  | .function, (w : FunctionNode) => w.symbol.origin
  | .property, (w : PropertyNode) => w.symbol.origin
  | .getter, (w : GetterNode) => w.symbol.accessorOrigin
  | .setter, (w : SetterNode) => w.symbol.accessorOrigin
  | .valueParameter, (w : ValueParameterNode) => w.symbol.origin
  | .typeParameter, (w : TypeParameterNode) => w.symbol.origin
  | .typeReference, w => TypeReference.origin w
  | .classifierReference, w => ClassifierReference.origin w
  | .callableReference, w => CallableReference.origin w
  | .dynamicReference, w => DynamicReference.origin w
  | .annotationUse, _ => .source
  | .valueArgument, w => ArgumentNode.origin w

namespace Query

def origin (node : NodeId) : Query σ Origin := do
  return node.kind.origin (← resolve node.handle)

/-! ## Types, references and annotations -/

/-- Wraps a use of a type under an owner, from which it has its origin. A use without an owner was
written nowhere. -/
def typeReference (type : TypeKey) (parent : Option NodeId) (index : Int) : Query σ TypeReference :=
  wrap (.node .typeReference) { type, parent, index } do
    let origin ← match parent with
      | some node => origin node
      | none => pure .synthetic
    return fun id => { id, type, parent, index, origin }

/-- The use of a type that is not an entry of a list. -/
def primaryReference (type : TypeKey) (parent : Option NodeId) : Query σ TypeReference :=
  typeReference type parent (-1)

def resolvedType (key : TypeKey) : Query σ ResolvedType :=
  wrap .resolvedType key do
    let type ← request (·.type key)
    return fun id => { id, key, type }

def annotationUse (key : AnnotationKey) (parent : Option NodeId) : Query σ AnnotationNode :=
  wrap (.node .annotationUse) { key, parent } do
    let record ← request (·.annotationUse key)
    return fun id => { id, key, record, parent }

def valueArgument (owner : AnnotationId) (source : ArgumentSource) (name : Option String)
    (value : AnnotationValue) (origin : Origin) (position : Option Position) :
    Query σ ArgumentNode :=
  wrap (.node .valueArgument) { owner, source } do
    return fun id => { id, owner, name, value, origin, position }

def classifierReference (key : TypeKey) (owner : TypeReference) : Query σ ClassifierReference :=
  wrap (.node .classifierReference) { type := key, owner := owner.id } do
    let type ← request (·.type key)
    match type.shape with
    | .classType className arguments => return fun id =>
        { id, type := key, owner := owner.id, origin := owner.origin, className, arguments }
    | shape => throw (.unexpectedShape s!"classifier reference `{type.rendered}`" "class type" shape)

def callableReference (key : TypeKey) (owner : TypeReference) : Query σ CallableReference :=
  wrap (.node .callableReference) { type := key, owner := owner.id } do
    let type ← request (·.type key)
    match type.shape with
    | .functional shape => return fun id =>
        { id, type := key, owner := owner.id, origin := owner.origin, shape }
    | shape =>
      throw (.unexpectedShape s!"callable reference `{type.rendered}`" "functional type" shape)

def dynamicReference (owner : TypeReference) : Query σ DynamicReference :=
  wrap (.node .dynamicReference) owner.id do
    return fun id => { id, owner := owner.id, origin := owner.origin }

end Query

end SymbolGraph
