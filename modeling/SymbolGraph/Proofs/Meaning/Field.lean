import SymbolGraph.Proofs.Meaning.View

/-!
# What fields mean

The meaning of every field that a session finds out once and keeps.
-/

namespace SymbolGraph

variable {kind : Kind} {field : Field}

namespace Field

/-- What the value of a field shows. -/
@[reducible] def Sight : Field → Type
  | parent => Option NodeEntity
  | qualifiedName => Option String
  | annotations => List (Entity (.node .annotationUse))
  | modifiers => ModifierSet
  | docString => Option String
  | receiverType => Option (Entity (.node .typeReference))
  | returnType => Entity (.node .typeReference)
  | valueParameters => List (Entity (.node .valueParameter))
  | typeParameters => List (Entity (.node .typeParameter))
  | superTypes | bounds | functionParameters => List (Entity (.node .typeReference))
  | type => Entity (.node .typeReference)
  | getter => Option (Entity (.node .getter))
  | setter => Option (Entity (.node .setter))
  | parameter => Entity (.node .valueParameter)
  | element => Option NodeEntity
  | typeArguments => List (TypeArgument (Entity (.node .typeReference)))
  | arguments => List (Entity (.node .valueArgument))
  | annotationType => Option (Entity (.node .typeReference))
  | declaration => NodeEntity

def view : (field : Field) → View field.Value field.Sight
  | parent => View.node.option
  | qualifiedName => .plain
  | annotations => (View.wrapper (.node .annotationUse)).list
  | modifiers => .plain
  | docString => .plain
  | receiverType => (View.wrapper (.node .typeReference)).option
  | returnType => View.wrapper (.node .typeReference)
  | valueParameters => (View.wrapper (.node .valueParameter)).list
  | typeParameters => (View.wrapper (.node .typeParameter)).list
  | superTypes | bounds | functionParameters => (View.wrapper (.node .typeReference)).list
  | type => View.wrapper (.node .typeReference)
  | getter => (View.wrapper (.node .getter)).option
  | setter => (View.wrapper (.node .setter)).option
  | parameter => View.wrapper (.node .valueParameter)
  | element => View.element.option
  | typeArguments => (View.wrapper (.node .typeReference)).argument.list
  | arguments => (View.wrapper (.node .valueArgument)).list
  | annotationType => (View.wrapper (.node .typeReference)).option
  | declaration => View.declaration

theorem view_exact {caches : Caches} (wf : caches.WellFormed) (field : Field) :
    field.view.Exact caches := by
  cases field with
  | qualifiedName | modifiers | docString => exact .plain
  | parent => exact (View.Exact.node wf).option
  | element => exact (View.Exact.element wf).option
  | declaration => exact .declaration wf
  | typeArguments => exact (View.Exact.wrapper wf _).argument.list
  | returnType | type | parameter => exact .wrapper wf _
  | receiverType | getter | setter | annotationType => exact (View.Exact.wrapper wf _).option
  | annotations | valueParameters | typeParameters | superTypes | bounds | functionParameters
  | arguments => exact (View.Exact.wrapper wf _).list

end Field

namespace LazyField

/-- What a field of an entity means, given the portrait of the entity. -/
def sight (world : World) : LazyField kind field → Entity kind → kind.Wrapper → Meaning field.Sight
  | fileAnnotations, e, (w : FileNode) => world.wrapAnnotations e.node w.file.annotations
  | classParent, _, (w : ClassNode) => world.containerNode w.symbol
  | classQualifiedName, _, w => world.qualifiedName (.classLike w)
  | classAnnotations, _, w => world.declarationAnnotations (.classLike w)
  | classModifiers, _, (w : ClassNode) => do
    return w.symbol.classModifiers w.details.flags (← World.category w)
  | classTypeParameters, _, (w : ClassNode) => world.typeParameters w.details.typeParameters
  | classSuperTypes, e, (w : ClassNode) => world.entries e.node 0 w.details.supertypes
  | functionParent, _, (w : FunctionNode) => world.containerNode w.symbol
  | functionQualifiedName, _, w => world.qualifiedName (.function w)
  | functionAnnotations, _, w => world.declarationAnnotations (.function w)
  | functionModifiers, _, (w : FunctionNode) => return w.symbol.functionModifiers w.details.flags
  | functionDocString, _, w => world.functionDocString w
  | functionReceiverType, e, (w : FunctionNode) => world.receiverType e.node w.details.receiverType
  | functionReturnType, _, w => world.returnType w
  | functionParameters, e, (w : FunctionNode) => world.parameters e.node w.details.valueParameters
  | functionTypeParameters, _, (w : FunctionNode) => world.typeParameters w.details.typeParameters
  | propertyParent, _, (w : PropertyNode) => world.containerNode w.symbol
  | propertyQualifiedName, _, w => world.qualifiedName (.property w)
  | propertyAnnotations, _, w => world.declarationAnnotations (.property w)
  | propertyModifiers, _, (w : PropertyNode) => return w.symbol.propertyModifiers w.details.flags
  | propertyType, e, (w : PropertyNode) => world.primaryReference w.details.type e.node
  | propertyReceiverType, e, (w : PropertyNode) => world.receiverType e.node w.details.receiverType
  | propertyGetter, _, w => world.getter w
  | propertySetter, _, w => world.setter w
  | propertyTypeParameters, _, (w : PropertyNode) => world.typeParameters w.details.typeParameters
  | typeParameterParent, _, (w : TypeParameterNode) => world.containerNode w.symbol
  | typeParameterQualifiedName, _, w => world.qualifiedName (.typeParameter w)
  | typeParameterAnnotations, _, w => world.declarationAnnotations (.typeParameter w)
  | typeParameterModifiers, _, (w : TypeParameterNode) =>
    return w.symbol.typeParameterModifiers w.details
  | typeParameterBounds, e, (w : TypeParameterNode) => world.entries e.node 0 w.details.bounds
  | getterAnnotations, .getter receiver key, (w : GetterNode) =>
    world.accessorAnnotations w.toAccessor (Entity.getter receiver key).node receiver
      .setterParameter .getter
  | getterModifiers, .getter receiver _, (w : GetterNode) =>
    world.accessorModifiers w.toAccessor receiver
  | getterReturnType, e, (w : GetterNode) => world.primaryReference w.returnTypeKey e.node
  | setterAnnotations, .setter receiver key, (w : SetterNode) =>
    world.accessorAnnotations w.toAccessor (Entity.setter receiver key).node receiver .getter
      .setter
  | setterModifiers, .setter receiver _, (w : SetterNode) =>
    world.accessorModifiers w.toAccessor receiver
  | setterParameter, e, w => world.setterParameter e w
  | valueParameterAnnotations, .valueParameter key parent, w =>
    world.parameterAnnotations w (Entity.valueParameter key parent).node parent
  | valueParameterType, e, (w : ValueParameterNode) => world.primaryReference w.details.type e.node
  | referenceAnnotations, e, (w : TypeReference) => do
    let type ← world.inquire (.type w.type)
    world.wrapAnnotations e.node type.annotations
  | referenceModifiers, _, w => world.referenceModifiers w
  | referenceElement, e, w => world.element e w
  | classifierArguments, e, (w : ClassifierReference) => world.typeArguments e.node w.arguments
  | callableReceiverType, e, (w : CallableReference) => world.receiverType e.node w.shape.receiver
  | callableParameters, e, (w : CallableReference) =>
    w.shape.parameters.mapM fun type => world.primaryReference type e.node
  | callableReturnType, e, (w : CallableReference) =>
    world.primaryReference w.shape.returnType e.node
  | annotationArguments, e, w => world.arguments e w
  | annotationType, e, w => world.annotationType e w
  | typeDeclaration, _, w => world.typeDeclaration w
  | typeArguments, _, w => world.resolvedArguments w
  | typeAnnotations, _, (w : ResolvedType) => world.wrapAnnotations none w.type.annotations

/-- What a field of an entity means. -/
def meaning (world : World) (f : LazyField kind field) (e : Entity kind) : Meaning field.Sight := do
  f.sight world e (← e.portrait world)

/-- A wrapper has a field only once. -/
theorem unique (f g : LazyField kind field) : f = g := by
  cases f <;> cases g <;> rfl

end LazyField

/-- The nodes right below a node, given its portrait. -/
def NodeKind.below (world : World) :
    (kind : NodeKind) → Entity (.node kind) → kind.Wrapper → Meaning (List NodeEntity)
  | .file, e, (w : FileNode) => do
    let annotations ← LazyField.fileAnnotations.sight world e w
    let declarations ← w.file.declarations.mapM world.declaration
    return annotations.map (fun a => a.node) ++ declarations
  | .classLike, e, (w : ClassNode) => do
    let annotations ← LazyField.classAnnotations.sight world e w
    let typeParameters ← LazyField.classTypeParameters.sight world e w
    let superTypes ← LazyField.classSuperTypes.sight world e w
    let declarations ← w.declarationKeys.mapM world.declaration
    return annotations.map (fun a => a.node) ++ typeParameters.map (fun p => p.node)
      ++ superTypes.map (fun r => r.node) ++ declarations
  | .function, e, (w : FunctionNode) => do
    let annotations ← LazyField.functionAnnotations.sight world e w
    let typeParameters ← LazyField.functionTypeParameters.sight world e w
    let receiver ← LazyField.functionReceiverType.sight world e w
    let parameters ← LazyField.functionParameters.sight world e w
    let returnType ← LazyField.functionReturnType.sight world e w
    let declarations ← w.declarationKeys.mapM world.declaration
    return annotations.map (fun a => a.node) ++ typeParameters.map (fun p => p.node)
      ++ receiver.toList.map (fun r => r.node) ++ parameters.map (fun p => p.node)
      ++ [returnType.node] ++ declarations
  | .property, e, (w : PropertyNode) => do
    let annotations ← LazyField.propertyAnnotations.sight world e w
    let typeParameters ← LazyField.propertyTypeParameters.sight world e w
    let receiver ← LazyField.propertyReceiverType.sight world e w
    let type ← LazyField.propertyType.sight world e w
    let getter ← LazyField.propertyGetter.sight world e w
    let setter ← LazyField.propertySetter.sight world e w
    return annotations.map (fun a => a.node) ++ typeParameters.map (fun p => p.node)
      ++ receiver.toList.map (fun r => r.node) ++ [type.node]
      ++ getter.toList.map (fun g => g.node) ++ setter.toList.map (fun s => s.node)
  | .getter, e, (w : GetterNode) => do
    let annotations ← LazyField.getterAnnotations.sight world e w
    let returnType ← LazyField.getterReturnType.sight world e w
    return annotations.map (fun a => a.node) ++ [returnType.node]
  | .setter, e, (w : SetterNode) => do
    let annotations ← LazyField.setterAnnotations.sight world e w
    let parameter ← LazyField.setterParameter.sight world e w
    return annotations.map (fun a => a.node) ++ [parameter.node]
  | .valueParameter, e, (w : ValueParameterNode) => do
    let annotations ← LazyField.valueParameterAnnotations.sight world e w
    let type ← LazyField.valueParameterType.sight world e w
    return annotations.map (fun a => a.node) ++ [type.node]
  | .typeParameter, e, (w : TypeParameterNode) => do
    let annotations ← LazyField.typeParameterAnnotations.sight world e w
    let bounds ← LazyField.typeParameterBounds.sight world e w
    return annotations.map (fun a => a.node) ++ bounds.map (fun r => r.node)
  | .typeReference, e, (w : TypeReference) => do
    let annotations ← LazyField.referenceAnnotations.sight world e w
    let element ← LazyField.referenceElement.sight world e w
    return annotations.map (fun a => a.node) ++ element.toList
  | .classifierReference, e, (w : ClassifierReference) => do
    let arguments ← LazyField.classifierArguments.sight world e w
    return (arguments.filterMap TypeArgument.type?).map (fun r => r.node)
  | .callableReference, e, (w : CallableReference) => do
    let receiver ← LazyField.callableReceiverType.sight world e w
    let parameters ← LazyField.callableParameters.sight world e w
    let returnType ← LazyField.callableReturnType.sight world e w
    return receiver.toList.map (fun r => r.node) ++ parameters.map (fun r => r.node)
      ++ [returnType.node]
  | .annotationUse, e, (w : AnnotationNode) => do
    let type ← LazyField.annotationType.sight world e w
    let arguments ← LazyField.annotationArguments.sight world e w
    return type.toList.map (fun r => r.node) ++ arguments.map (fun a => a.node)
  | .dynamicReference, _, _ | .valueArgument, _, _ => return []

end SymbolGraph
