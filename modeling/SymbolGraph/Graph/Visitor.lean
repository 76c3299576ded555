import SymbolGraph.Graph.Children

/-!
# Visitors and walks

A visitor says what to do with a node of each kind. What it does not say falls back:
declarations of every kind to one common case, and everything in the end to a last one. A
walk takes a visitor through a node and everything below it, parents before children.
-/

namespace SymbolGraph

variable {σ δ ρ : Type}

structure Visitor (σ δ ρ : Type) where
  /-- What to do with a node that nothing else is said about. -/
  other : NodeId → Visit σ δ ρ
  declaration : Declaration → Visit σ δ ρ := fun d => other d.node
  file : FileNode → Visit σ δ ρ := fun w => other w.id.node
  classLike : ClassNode → Visit σ δ ρ := fun w => declaration (.classLike w)
  function : FunctionNode → Visit σ δ ρ := fun w => declaration (.function w)
  property : PropertyNode → Visit σ δ ρ := fun w => declaration (.property w)
  typeParameter : TypeParameterNode → Visit σ δ ρ := fun w => declaration (.typeParameter w)
  getter : GetterNode → Visit σ δ ρ := fun w => other w.id.node
  setter : SetterNode → Visit σ δ ρ := fun w => other w.id.node
  valueParameter : ValueParameterNode → Visit σ δ ρ := fun w => other w.id.node
  typeReference : TypeReference → Visit σ δ ρ := fun w => other w.id.node
  classifierReference : ClassifierReference → Visit σ δ ρ := fun w => other w.id.node
  callableReference : CallableReference → Visit σ δ ρ := fun w => other w.id.node
  dynamicReference : DynamicReference → Visit σ δ ρ := fun w => other w.id.node
  annotationUse : AnnotationNode → Visit σ δ ρ := fun w => other w.id.node
  valueArgument : ArgumentNode → Visit σ δ ρ := fun w => other w.id.node

/-- Shows a wrapper to a visitor. -/
def Visitor.visit (v : Visitor σ δ ρ) : (kind : NodeKind) → kind.Wrapper → Visit σ δ ρ
  | .file, w => v.file w
  | .classLike, w => v.classLike w
  | .function, w => v.function w
  | .property, w => v.property w
  | .getter, w => v.getter w
  | .setter, w => v.setter w
  | .valueParameter, w => v.valueParameter w
  | .typeParameter, w => v.typeParameter w
  | .typeReference, w => v.typeReference w
  | .classifierReference, w => v.classifierReference w
  | .callableReference, w => v.callableReference w
  | .dynamicReference, w => v.dynamicReference w
  | .annotationUse, w => v.annotationUse w
  | .valueArgument, w => v.valueArgument w

/-- Shows a node to a visitor. -/
def NodeId.accept (node : NodeId) (v : Visitor σ δ ρ) : Visit σ δ ρ := do
  v.visit node.kind (← Visit.ofQuery (Query.resolve node.handle))

namespace Visitor

/-- Visits the nodes on a stack and everything below them: the first node, then its children, which
go in front of the rest. After `steps` nodes the walk pauses and hands back the nodes that are
still to be visited, so the walk is over if it hands back none. -/
def walk (v : Visitor σ δ Unit) : Nat → List NodeId → Visit σ δ (List NodeId)
  | _, [] => return []
  | 0, stack => return stack
  | steps + 1, node :: stack => do
    node.accept v
    -- The visitor comes first, so it may fail before the children are wrapped.
    let children ← Visit.ofQuery node.children
    v.walk steps (children ++ stack)

end Visitor

end SymbolGraph
