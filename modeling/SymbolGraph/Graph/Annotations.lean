import SymbolGraph.Graph.Containment

/-!
# Annotations of nodes

Which annotations belong to which node. An annotation written on a property may be aimed at
its getter, its setter or the parameter of its setter; it then belongs to that node and no
longer to the property. An annotation that belongs to two nodes is wrapped once for each.
-/

namespace SymbolGraph

variable {σ : Type}

namespace Query

/-- Wraps annotations for the node that bears them. -/
def wrapAnnotations (bearer : Option NodeId) (keys : List AnnotationKey) :
    Query σ (List AnnotationNode) :=
  keys.mapM fun key => annotationUse key bearer

/-- Wraps, in order, the annotations whose target is wanted. -/
def selectAnnotations (bearer : NodeId) (wanted : Option UseSiteTarget → Bool) :
    List AnnotationKey → Query σ (List AnnotationNode)
  | [] => return []
  | key :: keys => do
    let record ← request (·.annotationUse key)
    if wanted record.target then
      let first ← annotationUse key bearer
      return first :: (← selectAnnotations bearer wanted keys)
    else selectAnnotations bearer wanted keys

end Query

/-- Whether an annotation of a property belongs to an accessor or its parameter instead. -/
def UseSiteTarget.isAccessor : UseSiteTarget → Bool
  | getter | setter | setterParameter => true
  | _ => false

def FileNode.annotations (f : FileNode) : Query σ (List AnnotationNode) :=
  Query.memoize (f.id.cell .annotations) do
    Query.wrapAnnotations f.id.node f.file.annotations

/-- The annotations of a declaration. -/
def Declaration.annotations (d : Declaration) : Query σ (List AnnotationNode) :=
  Query.memoize (d.node.cell .annotations) do
    let wanted : Option UseSiteTarget → Bool :=
      match d with
      | .property _ => fun target => !target.any UseSiteTarget.isAccessor
      | _ => fun _ => true
    Query.selectAnnotations d.node wanted d.symbol.annotations

/-- The annotations of an accessor: its own except those aimed at `excluded`, then those of its
property aimed at `pulled`. -/
def Accessor.annotations (a : Accessor) (bearer : NodeId) (excluded pulled : UseSiteTarget) :
    Query σ (List AnnotationNode) :=
  Query.memoize (bearer.cell .annotations) do
    let own ← Query.selectAnnotations bearer (· ≠ some excluded) a.symbol.annotations
    let property ← Query.resolve a.receiver
    let pulled ← Query.selectAnnotations bearer (· = some pulled) property.symbol.annotations
    return own ++ pulled

def GetterNode.annotations (g : GetterNode) : Query σ (List AnnotationNode) :=
  g.toAccessor.annotations g.id.node .setterParameter .getter

def SetterNode.annotations (s : SetterNode) : Query σ (List AnnotationNode) :=
  s.toAccessor.annotations s.id.node .getter .setter

/-- The annotations of a value parameter. That of a setter also gets those of the property that are
aimed at it. -/
def ValueParameterNode.annotations (p : ValueParameterNode) : Query σ (List AnnotationNode) :=
  Query.memoize (p.id.cell .annotations) do
    let own ← Query.wrapAnnotations p.id.node p.symbol.annotations
    match p.parent.kind with
    | .setter =>
      let setter ← Query.resolve (⟨p.parent.index⟩ : SetterId)
      let property ← Query.resolve setter.receiver
      let pulled ← Query.selectAnnotations p.id.node (· = some .setterParameter)
        property.symbol.annotations
      return own ++ pulled
    | _ => return own

/-- The annotations of one use of a type. -/
def TypeReference.annotations (r : TypeReference) : Query σ (List AnnotationNode) :=
  Query.memoize (r.id.cell .annotations) do
    let type ← Query.request (·.type r.type)
    Query.wrapAnnotations r.id.node type.annotations

/-- The annotations of a type apart from its uses. -/
def ResolvedType.annotations (t : ResolvedType) : Query σ (List AnnotationNode) :=
  Query.memoize (t.id.cell .annotations) do
    Query.wrapAnnotations none t.type.annotations

end SymbolGraph
