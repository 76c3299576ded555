import SymbolGraph.Graph.Annotations
import SymbolGraph.Graph.Arguments
import SymbolGraph.Graph.References
import SymbolGraph.Graph.Signature

/-!
# Children

The nodes right below a node, in the order in which they are traversed. Finding them wraps
them. The declarations in a file, a class or a body are looked up anew each time; all other
children are kept once found.
-/

namespace SymbolGraph

variable {σ : Type}

/-- Wraps declarations as nodes. -/
def Query.declarationNodes (keys : List SymbolKey) : Query σ (List NodeId) :=
  keys.mapM fun key => return (← declaration key).node

def FileNode.children (f : FileNode) : Query σ (List NodeId) := do
  let annotations ← f.annotations
  let declarations ← Query.declarationNodes f.file.declarations
  return annotations.map (·.id.node) ++ declarations

def ClassNode.children (c : ClassNode) : Query σ (List NodeId) := do
  let annotations ← (Declaration.classLike c).annotations
  let typeParameters ← c.typeParameters
  let superTypes ← c.superTypes
  let declarations ← Query.declarationNodes c.declarationKeys
  return annotations.map (·.id.node) ++ typeParameters.map (·.id.node)
    ++ superTypes.map (·.id.node) ++ declarations

def FunctionNode.children (f : FunctionNode) : Query σ (List NodeId) := do
  let annotations ← (Declaration.function f).annotations
  let typeParameters ← f.typeParameters
  let receiver ← f.receiverType
  let parameters ← f.parameters
  let returnType ← f.returnType
  let declarations ← Query.declarationNodes f.declarationKeys
  return annotations.map (·.id.node) ++ typeParameters.map (·.id.node)
    ++ receiver.toList.map (·.id.node) ++ parameters.map (·.id.node)
    ++ [returnType.id.node] ++ declarations

def PropertyNode.children (p : PropertyNode) : Query σ (List NodeId) := do
  let annotations ← (Declaration.property p).annotations
  let typeParameters ← p.typeParameters
  let receiver ← p.receiverType
  let type ← p.type
  let getter ← p.getter
  let setter ← p.setter
  return annotations.map (·.id.node) ++ typeParameters.map (·.id.node)
    ++ receiver.toList.map (·.id.node) ++ [type.id.node]
    ++ getter.toList.map (·.id.node) ++ setter.toList.map (·.id.node)

def GetterNode.children (g : GetterNode) : Query σ (List NodeId) := do
  let annotations ← g.annotations
  let returnType ← g.returnType
  return annotations.map (·.id.node) ++ [returnType.id.node]

def SetterNode.children (s : SetterNode) : Query σ (List NodeId) := do
  let annotations ← s.annotations
  let parameter ← s.parameter
  return annotations.map (·.id.node) ++ [parameter.id.node]

def ValueParameterNode.children (p : ValueParameterNode) : Query σ (List NodeId) := do
  let annotations ← p.annotations
  let type ← p.type
  return annotations.map (·.id.node) ++ [type.id.node]

def TypeParameterNode.children (p : TypeParameterNode) : Query σ (List NodeId) := do
  let annotations ← (Declaration.typeParameter p).annotations
  let bounds ← p.bounds
  return annotations.map (·.id.node) ++ bounds.map (·.id.node)

def TypeReference.children (r : TypeReference) : Query σ (List NodeId) := do
  let annotations ← r.annotations
  let element ← r.element
  return annotations.map (·.id.node) ++ element.toList.map ReferenceElement.node

def ClassifierReference.children (c : ClassifierReference) : Query σ (List NodeId) := do
  let arguments ← c.typeArguments
  return (arguments.filterMap TypeArgument.type?).map (·.id.node)

def CallableReference.children (c : CallableReference) : Query σ (List NodeId) := do
  let receiver ← c.receiverType
  let parameters ← c.functionParameters
  let returnType ← c.returnType
  return receiver.toList.map (·.id.node) ++ parameters.map (·.id.node) ++ [returnType.id.node]

def AnnotationNode.children (a : AnnotationNode) : Query σ (List NodeId) := do
  let type ← a.annotationType
  let arguments ← a.arguments
  return type.toList.map (·.id.node) ++ arguments.map (·.id.node)

/-- The children of a wrapper. -/
def NodeKind.children : (kind : NodeKind) → kind.Wrapper → Query σ (List NodeId)
  | .file, w => FileNode.children w
  | .classLike, w => ClassNode.children w
  | .function, w => FunctionNode.children w
  | .property, w => PropertyNode.children w
  | .getter, w => GetterNode.children w
  | .setter, w => SetterNode.children w
  | .valueParameter, w => ValueParameterNode.children w
  | .typeParameter, w => TypeParameterNode.children w
  | .typeReference, w => TypeReference.children w
  | .classifierReference, w => ClassifierReference.children w
  | .callableReference, w => CallableReference.children w
  | .annotationUse, w => AnnotationNode.children w
  | .dynamicReference, _ | .valueArgument, _ => return []

/-- The children of a node. -/
def NodeId.children (node : NodeId) : Query σ (List NodeId) := do
  node.kind.children (← Query.resolve node.handle)

end SymbolGraph
