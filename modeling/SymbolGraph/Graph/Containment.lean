import SymbolGraph.Session.Wrap

/-!
# Containment

What a node lies in, and the names that declarations have because of it. Parents of
declarations are found through the front end's containers and kept; all other nodes carry
the handle of their parent.
-/

namespace SymbolGraph

variable {σ : Type}

/-- The cell of a field of this node. -/
abbrev NodeId.cell (node : NodeId) (field : Field) : Cell := ⟨.node node.kind, node.index, field⟩

/-- The node around a symbol: its container, or else its file. An accessor as container is found
under its property. -/
def SymbolRecord.containerNode (symbol : SymbolRecord) : Query σ (Option NodeId) := do
  match symbol.container with
  | none =>
    match symbol.file with
    | some file => return some (← Query.file file).id.node
    | none => return none
  | some container =>
    let outer ← Query.request (·.symbol container)
    -- Asked for only if the container turns out to be an accessor.
    let property : Query σ PropertyNode :=
      match outer.container with
      | some property => Query.property property
      | none => throw (.inconsistency s!"accessor container of `{symbol.displayName}`"
          "accessor owned by a property" "accessor without property")
    match outer.details with
    | .getter _ => return some (← Query.getter (← property).id container).id.node
    | .setter _ => return some (← Query.setter (← property).id container).id.node
    | _ => return some (← Query.declaration container).node

namespace Declaration

def parent (d : Declaration) : Query σ (Option NodeId) :=
  Query.memoize (d.node.cell .parent) d.symbol.containerNode

/-- The declaration right around this one, if a declaration is. -/
def parentDeclaration (d : Declaration) : Query σ (Option Declaration) := do
  match ← d.parent with
  | some parent => Query.nodeDeclaration parent
  | none => return none

/-- The qualified name of a declaration, given how the declaration around it is named. -/
def nameUnder (d : Declaration) (nameOf : Declaration → Query σ (Option String)) :
    Query σ (Option String) := do
  -- Nothing outside of a body can name what is in it.
  if d.symbol.kind = .inBody then return none
  match ← d.parent with
  | none => return some (packageQualified d.packageName d.simpleName)
  | some parent =>
    if parent.kind = .file then return some (packageQualified d.packageName d.simpleName)
    match ← Query.nodeDeclaration parent with
    | none => return none
    | some outer => return (← nameOf outer).map fun name => name ++ "." ++ d.simpleName

/-- The qualified name of a declaration nested in at most `depth` others. -/
def qualifiedNameWithin : Nat → Declaration → Query σ (Option String)
  | 0, d => Query.memoize (d.node.cell .qualifiedName) (d.nameUnder fun _ =>
    throw (.inconsistency s!"qualified name of `{d.simpleName}`" "finite chain of containers"
      "symbol that contains itself"))
  | depth + 1, d =>
    Query.memoize (d.node.cell .qualifiedName) (d.nameUnder (qualifiedNameWithin depth))

/-- The name of the parent, then the simple name. Declarations right in a file are named after
their package. Declarations local to a body have no qualified name, and neither has anything
in them. -/
def qualifiedName (d : Declaration) : Query σ (Option String) := do
  d.qualifiedNameWithin (← read).oracle.nesting

end Declaration

/-- The parent of a wrapper. -/
def NodeKind.parent : (kind : NodeKind) → kind.Wrapper → Query σ (Option NodeId)
  | .file, _ => return none
  | .classLike, w => (Declaration.classLike w).parent
  | .function, w => (Declaration.function w).parent
  | .property, w => (Declaration.property w).parent
  | .typeParameter, w => (Declaration.typeParameter w).parent
  | .getter, (w : GetterNode) => return some w.receiver.node
  | .setter, (w : SetterNode) => return some w.receiver.node
  | .valueParameter, (w : ValueParameterNode) => return some w.parent
  | .typeReference, (w : TypeReference) => return w.parent
  | .classifierReference, (w : ClassifierReference) => return some w.owner.node
  | .callableReference, (w : CallableReference) => return some w.owner.node
  | .dynamicReference, (w : DynamicReference) => return some w.owner.node
  | .annotationUse, (w : AnnotationNode) => return w.parent
  | .valueArgument, (w : ArgumentNode) => return some w.owner.node

/-- The parent of a node. -/
def NodeId.parent (node : NodeId) : Query σ (Option NodeId) := do
  node.kind.parent (← Query.resolve node.handle)

end SymbolGraph
