import SymbolGraph.Graph.Visitor
import SymbolGraph.Proofs.Graph.Regular

/-!
# Operations

What can be asked of a session from outside: to wrap a key, to read something off a wrapper
by its handle, and to walk a tree. The handles in an operation may be issued ones or forged
ones.
-/

namespace SymbolGraph

variable {σ α : Type} {kind : Kind} {field : Field}

/-! ## Wrapping -/

/-- The requests for a wrapper by its key, by the kind of the wrapper. -/
inductive Wrapping : Kind → Type
  | file (key : FileKey) : Wrapping (.node .file)
  | classLike (key : SymbolKey) : Wrapping (.node .classLike)
  | function (key : SymbolKey) : Wrapping (.node .function)
  | property (key : SymbolKey) : Wrapping (.node .property)
  | getter (receiver : PropertyId) (key : SymbolKey) : Wrapping (.node .getter)
  | setter (receiver : PropertyId) (key : SymbolKey) : Wrapping (.node .setter)
  | valueParameter (key : SymbolKey) (parent : NodeId) : Wrapping (.node .valueParameter)
  | typeParameter (key : SymbolKey) : Wrapping (.node .typeParameter)
  | typeReference (type : TypeKey) (parent : Option NodeId) (index : Int) :
    Wrapping (.node .typeReference)
  | resolvedType (key : TypeKey) : Wrapping .resolvedType
  | annotationUse (key : AnnotationKey) (parent : Option NodeId) : Wrapping (.node .annotationUse)

namespace Wrapping

def key : Wrapping kind → kind.Key
  | file key => key
  | classLike key | function key | property key | typeParameter key => key
  | getter receiver key | setter receiver key => { receiver, symbol := key }
  | valueParameter key parent => { symbol := key, parent }
  | typeReference type parent index => { type, parent, index }
  | resolvedType key => key
  | annotationUse key parent => { key, parent }

def query : Wrapping kind → Query σ kind.Wrapper
  | file key => Query.file key
  | classLike key => Query.classLike key
  | function key => Query.function key
  | property key => Query.property key
  | getter receiver key => Query.getter receiver key
  | setter receiver key => Query.setter receiver key
  | valueParameter key parent => Query.valueParameter key parent
  | typeParameter key => Query.typeParameter key
  | typeReference type parent index => Query.typeReference type parent index
  | resolvedType key => Query.resolvedType key
  | annotationUse key parent => Query.annotationUse key parent

theorem query_wraps (w : Wrapping kind) : Wraps kind w.key (w.query : Query σ _) := by
  cases w with
  | file key => exact Query.file_wraps key
  | classLike key => exact Query.classLike_wraps key
  | function key => exact Query.function_wraps key
  | property key => exact Query.property_wraps key
  | getter receiver key => exact Query.getter_wraps receiver key
  | setter receiver key => exact Query.setter_wraps receiver key
  | valueParameter key parent => exact Query.valueParameter_wraps key parent
  | typeParameter key => exact Query.typeParameter_wraps key
  | typeReference type parent index => exact Query.typeReference_wraps type parent index
  | resolvedType key => exact Query.resolvedType_wraps key
  | annotationUse key parent => exact Query.annotationUse_wraps key parent

end Wrapping

/-! ## Reading -/

/-- The fields that are found out once and kept, by the kind of the wrapper. -/
inductive LazyField : Kind → Field → Type
  | fileAnnotations : LazyField (.node .file) .annotations
  | classParent : LazyField (.node .classLike) .parent
  | classQualifiedName : LazyField (.node .classLike) .qualifiedName
  | classAnnotations : LazyField (.node .classLike) .annotations
  | classModifiers : LazyField (.node .classLike) .modifiers
  | classTypeParameters : LazyField (.node .classLike) .typeParameters
  | classSuperTypes : LazyField (.node .classLike) .superTypes
  | functionParent : LazyField (.node .function) .parent
  | functionQualifiedName : LazyField (.node .function) .qualifiedName
  | functionAnnotations : LazyField (.node .function) .annotations
  | functionModifiers : LazyField (.node .function) .modifiers
  | functionDocString : LazyField (.node .function) .docString
  | functionReceiverType : LazyField (.node .function) .receiverType
  | functionReturnType : LazyField (.node .function) .returnType
  | functionParameters : LazyField (.node .function) .valueParameters
  | functionTypeParameters : LazyField (.node .function) .typeParameters
  | propertyParent : LazyField (.node .property) .parent
  | propertyQualifiedName : LazyField (.node .property) .qualifiedName
  | propertyAnnotations : LazyField (.node .property) .annotations
  | propertyModifiers : LazyField (.node .property) .modifiers
  | propertyType : LazyField (.node .property) .type
  | propertyReceiverType : LazyField (.node .property) .receiverType
  | propertyGetter : LazyField (.node .property) .getter
  | propertySetter : LazyField (.node .property) .setter
  | propertyTypeParameters : LazyField (.node .property) .typeParameters
  | typeParameterParent : LazyField (.node .typeParameter) .parent
  | typeParameterQualifiedName : LazyField (.node .typeParameter) .qualifiedName
  | typeParameterAnnotations : LazyField (.node .typeParameter) .annotations
  | typeParameterModifiers : LazyField (.node .typeParameter) .modifiers
  | typeParameterBounds : LazyField (.node .typeParameter) .bounds
  | getterAnnotations : LazyField (.node .getter) .annotations
  | getterModifiers : LazyField (.node .getter) .modifiers
  | getterReturnType : LazyField (.node .getter) .returnType
  | setterAnnotations : LazyField (.node .setter) .annotations
  | setterModifiers : LazyField (.node .setter) .modifiers
  | setterParameter : LazyField (.node .setter) .parameter
  | valueParameterAnnotations : LazyField (.node .valueParameter) .annotations
  | valueParameterType : LazyField (.node .valueParameter) .type
  | referenceAnnotations : LazyField (.node .typeReference) .annotations
  | referenceModifiers : LazyField (.node .typeReference) .modifiers
  | referenceElement : LazyField (.node .typeReference) .element
  | classifierArguments : LazyField (.node .classifierReference) .typeArguments
  | callableReceiverType : LazyField (.node .callableReference) .receiverType
  | callableParameters : LazyField (.node .callableReference) .functionParameters
  | callableReturnType : LazyField (.node .callableReference) .returnType
  | annotationArguments : LazyField (.node .annotationUse) .arguments
  | annotationType : LazyField (.node .annotationUse) .annotationType
  | typeDeclaration : LazyField .resolvedType .declaration
  | typeArguments : LazyField .resolvedType .typeArguments
  | typeAnnotations : LazyField .resolvedType .annotations

def LazyField.read : LazyField kind field → kind.Wrapper → Query σ field.Value
  | fileAnnotations, w => FileNode.annotations w
  | classParent, w => (Declaration.classLike w).parent
  | classQualifiedName, w => (Declaration.classLike w).qualifiedName
  | classAnnotations, w => (Declaration.classLike w).annotations
  | classModifiers, w => ClassNode.modifiers w
  | classTypeParameters, w => ClassNode.typeParameters w
  | classSuperTypes, w => ClassNode.superTypes w
  | functionParent, w => (Declaration.function w).parent
  | functionQualifiedName, w => (Declaration.function w).qualifiedName
  | functionAnnotations, w => (Declaration.function w).annotations
  | functionModifiers, w => FunctionNode.modifiers w
  | functionDocString, w => FunctionNode.docString w
  | functionReceiverType, w => FunctionNode.receiverType w
  | functionReturnType, w => FunctionNode.returnType w
  | functionParameters, w => FunctionNode.parameters w
  | functionTypeParameters, w => FunctionNode.typeParameters w
  | propertyParent, w => (Declaration.property w).parent
  | propertyQualifiedName, w => (Declaration.property w).qualifiedName
  | propertyAnnotations, w => (Declaration.property w).annotations
  | propertyModifiers, w => PropertyNode.modifiers w
  | propertyType, w => PropertyNode.type w
  | propertyReceiverType, w => PropertyNode.receiverType w
  | propertyGetter, w => PropertyNode.getter w
  | propertySetter, w => PropertyNode.setter w
  | propertyTypeParameters, w => PropertyNode.typeParameters w
  | typeParameterParent, w => (Declaration.typeParameter w).parent
  | typeParameterQualifiedName, w => (Declaration.typeParameter w).qualifiedName
  | typeParameterAnnotations, w => (Declaration.typeParameter w).annotations
  | typeParameterModifiers, w => TypeParameterNode.modifiers w
  | typeParameterBounds, w => TypeParameterNode.bounds w
  | getterAnnotations, w => GetterNode.annotations w
  | getterModifiers, w => GetterNode.modifiers w
  | getterReturnType, w => GetterNode.returnType w
  | setterAnnotations, w => SetterNode.annotations w
  | setterModifiers, w => SetterNode.modifiers w
  | setterParameter, w => SetterNode.parameter w
  | valueParameterAnnotations, w => ValueParameterNode.annotations w
  | valueParameterType, w => ValueParameterNode.type w
  | referenceAnnotations, w => TypeReference.annotations w
  | referenceModifiers, w => TypeReference.modifiers w
  | referenceElement, w => TypeReference.element w
  | classifierArguments, w => ClassifierReference.typeArguments w
  | callableReceiverType, w => CallableReference.receiverType w
  | callableParameters, w => CallableReference.functionParameters w
  | callableReturnType, w => CallableReference.returnType w
  | annotationArguments, w => AnnotationNode.arguments w
  | annotationType, w => AnnotationNode.annotationType w
  | typeDeclaration, w => ResolvedType.declaration w
  | typeArguments, w => ResolvedType.arguments w
  | typeAnnotations, w => ResolvedType.annotations w

/-- Every such field has the cell that is named after it. The settings of a session say how deep a
qualified name may be nested, so the computation behind a cell depends on them. -/
theorem LazyField.read_kept {reads : FunctionNode → Prop} (f : LazyField kind field)
    (w : kind.Wrapper) (hreads : field = .returnType → ∀ g, kind.function? w = some g → reads g)
    (session : Session σ) : ∃ q, Kept reads ((kind.idOf w).cell field) q ∧ f.read w session = q session := by
  cases f with
  | fileAnnotations => exact ⟨_, FileNode.annotations_kept w, rfl⟩
  | classParent => exact ⟨_, (Declaration.classLike w).parent_kept, rfl⟩
  | classQualifiedName => exact ⟨_, (Declaration.classLike w).qualifiedNameWithin_kept _, rfl⟩
  | classAnnotations => exact ⟨_, (Declaration.classLike w).annotations_kept, rfl⟩
  | classModifiers => exact ⟨_, ClassNode.modifiers_kept w, rfl⟩
  | classTypeParameters => exact ⟨_, Query.typeParameters_kept (ClassNode.id w).node _, rfl⟩
  | classSuperTypes => exact ⟨_, ClassNode.superTypes_kept w, rfl⟩
  | functionParent => exact ⟨_, (Declaration.function w).parent_kept, rfl⟩
  | functionQualifiedName => exact ⟨_, (Declaration.function w).qualifiedNameWithin_kept _, rfl⟩
  | functionAnnotations => exact ⟨_, (Declaration.function w).annotations_kept, rfl⟩
  | functionModifiers => exact ⟨_, FunctionNode.modifiers_kept w, rfl⟩
  | functionDocString => exact ⟨_, FunctionNode.docString_kept w, rfl⟩
  | functionReceiverType => exact ⟨_, Query.receiverType_kept (FunctionNode.id w).node _, rfl⟩
  | functionReturnType => exact ⟨_, FunctionNode.returnType_kept w (hreads rfl w rfl), rfl⟩
  | functionParameters => exact ⟨_, FunctionNode.parameters_kept w, rfl⟩
  | functionTypeParameters => exact ⟨_, Query.typeParameters_kept (FunctionNode.id w).node _, rfl⟩
  | propertyParent => exact ⟨_, (Declaration.property w).parent_kept, rfl⟩
  | propertyQualifiedName => exact ⟨_, (Declaration.property w).qualifiedNameWithin_kept _, rfl⟩
  | propertyAnnotations => exact ⟨_, (Declaration.property w).annotations_kept, rfl⟩
  | propertyModifiers => exact ⟨_, PropertyNode.modifiers_kept w, rfl⟩
  | propertyType => exact ⟨_, PropertyNode.type_kept w, rfl⟩
  | propertyReceiverType => exact ⟨_, Query.receiverType_kept (PropertyNode.id w).node _, rfl⟩
  | propertyGetter => exact ⟨_, PropertyNode.getter_kept w, rfl⟩
  | propertySetter => exact ⟨_, PropertyNode.setter_kept w, rfl⟩
  | propertyTypeParameters => exact ⟨_, Query.typeParameters_kept (PropertyNode.id w).node _, rfl⟩
  | typeParameterParent => exact ⟨_, (Declaration.typeParameter w).parent_kept, rfl⟩
  | typeParameterQualifiedName =>
    exact ⟨_, (Declaration.typeParameter w).qualifiedNameWithin_kept _, rfl⟩
  | typeParameterAnnotations => exact ⟨_, (Declaration.typeParameter w).annotations_kept, rfl⟩
  | typeParameterModifiers => exact ⟨_, TypeParameterNode.modifiers_kept w, rfl⟩
  | typeParameterBounds => exact ⟨_, TypeParameterNode.bounds_kept w, rfl⟩
  | getterAnnotations => exact ⟨_, Accessor.annotations_kept _ (GetterNode.id w).node _ _, rfl⟩
  | getterModifiers => exact ⟨_, Accessor.modifiers_kept _ (GetterNode.id w).node, rfl⟩
  | getterReturnType => exact ⟨_, GetterNode.returnType_kept w, rfl⟩
  | setterAnnotations => exact ⟨_, Accessor.annotations_kept _ (SetterNode.id w).node _ _, rfl⟩
  | setterModifiers => exact ⟨_, Accessor.modifiers_kept _ (SetterNode.id w).node, rfl⟩
  | setterParameter => exact ⟨_, SetterNode.parameter_kept w, rfl⟩
  | valueParameterAnnotations => exact ⟨_, ValueParameterNode.annotations_kept w, rfl⟩
  | valueParameterType => exact ⟨_, ValueParameterNode.type_kept w, rfl⟩
  | referenceAnnotations => exact ⟨_, TypeReference.annotations_kept w, rfl⟩
  | referenceModifiers => exact ⟨_, TypeReference.modifiers_kept w, rfl⟩
  | referenceElement => exact ⟨_, TypeReference.element_kept w, rfl⟩
  | classifierArguments => exact ⟨_, ClassifierReference.typeArguments_kept w, rfl⟩
  | callableReceiverType => exact ⟨_, CallableReference.receiverType_kept w, rfl⟩
  | callableParameters => exact ⟨_, CallableReference.functionParameters_kept w, rfl⟩
  | callableReturnType => exact ⟨_, CallableReference.returnType_kept w, rfl⟩
  | annotationArguments => exact ⟨_, AnnotationNode.arguments_kept w, rfl⟩
  | annotationType => exact ⟨_, AnnotationNode.annotationType_kept w, rfl⟩
  | typeDeclaration => exact ⟨_, ResolvedType.declaration_kept w, rfl⟩
  | typeArguments => exact ⟨_, ResolvedType.arguments_kept w, rfl⟩
  | typeAnnotations => exact ⟨_, ResolvedType.annotations_kept w, rfl⟩

/-- The wrappers that list declarations. -/
inductive Scope : Kind → Type
  | file : Scope (.node .file)
  | classLike : Scope (.node .classLike)
  | function : Scope (.node .function)

def Scope.declarationKeys : Scope kind → kind.Wrapper → List SymbolKey
  | file, (w : FileNode) => w.file.declarations
  | classLike, (w : ClassNode) => w.declarationKeys
  | function, (w : FunctionNode) => w.declarationKeys

/-- What can be read off a wrapper. What the wrapper was created from is part of the wrapper. -/
inductive Reading : Kind → Type → Type
  | wrapper {kind : Kind} : Reading kind kind.Wrapper
  | field {kind : Kind} {field : Field} (f : LazyField kind field) : Reading kind field.Value
  | origin {kind : NodeKind} : Reading (.node kind) Origin
  | location {kind : NodeKind} : Reading (.node kind) Location
  | parent {kind : NodeKind} : Reading (.node kind) (Option NodeId)
  | children {kind : NodeKind} : Reading (.node kind) (List NodeId)
  /-- One entry of a list of declarations that is looked up anew each time. -/
  | declaration {kind : Kind} (scope : Scope kind) (position : Nat) :
    Reading kind (Option Declaration)
  | classCategory : Reading (.node .classLike) ClassCategory
  | classConstructor (position : Nat) : Reading (.node .classLike) (Option FunctionNode)
  | primaryConstructor : Reading (.node .classLike) (Option FunctionNode)
  | starProjectedType : Reading (.node .classLike) ResolvedType
  | functionCategory : Reading (.node .function) FunctionCategory
  | overridden : Reading (.node .function) (Option Declaration)
  | parentDeclaration : Reading (.node .property) (Option Declaration)
  | getterReceiver : Reading (.node .getter) PropertyNode
  | setterReceiver : Reading (.node .setter) PropertyNode
  | render : Reading (.node .typeReference) String
  | resolve : Reading (.node .typeReference) (Option ResolvedType)
  | defaultArguments : Reading (.node .annotationUse) (List ArgumentNode)
  | isStarProjected : Reading .resolvedType Bool

/-- An item of a list, made from the key at its position if there is one. -/
def Query.item {κ : Type} (keys : List κ) (position : Nat) (make : κ → Query σ α) :
    Query σ (Option α) := do
  match keys[position]? with
  | some key => return some (← make key)
  | none => return none

def Reading.query : Reading kind α → kind.Wrapper → Query σ α
  | wrapper, w => return w
  | .field f, w => f.read w
  | @origin kind, w => return kind.origin w
  | @location kind, w => kind.location w
  | @parent kind, w => kind.parent w
  | @children kind, w => kind.children w
  | declaration scope position, w =>
    Query.item (scope.declarationKeys w) position Query.declaration
  | classCategory, (w : ClassNode) => w.category
  | classConstructor position, (w : ClassNode) =>
    Query.item w.details.constructors position Query.function
  | primaryConstructor, (w : ClassNode) => w.primaryConstructor
  | starProjectedType, (w : ClassNode) => w.starProjectedType
  | functionCategory, (w : FunctionNode) => w.category
  | overridden, (w : FunctionNode) => w.overridden
  | parentDeclaration, w => (Declaration.property w).parentDeclaration
  | getterReceiver, (w : GetterNode) => Query.resolve w.receiver
  | setterReceiver, (w : SetterNode) => Query.resolve w.receiver
  | render, (w : TypeReference) => w.render
  | resolve, (w : TypeReference) => w.resolve
  | defaultArguments, (w : AnnotationNode) => w.defaultArguments
  | isStarProjected, (w : ResolvedType) => w.isStarProjected

theorem Query.item_regular {κ : Type} {reads : FunctionNode → Prop} {tier : Nat} {keys : List κ}
    {position : Nat} {make : κ → Query σ α} (h : ∀ key, Regular reads tier (make key)) :
    Regular reads tier (Query.item keys position make) := by
  unfold item
  split
  · exact .bind (h _) fun _ => .consult (.pure _)
  · exact .consult (.pure _)

/-- What takes the return type of a function if it is read of one. -/
def Reading.TakesReturnType : Reading kind α → Prop
  | @Reading.field _ name _ => name = .returnType
  | children => True
  | _ => False

/-- A reading is regular, unless it is of a place. -/
theorem Reading.query_regular {reads : FunctionNode → Prop} (r : Reading kind α)
    (w : kind.Wrapper) (hreads : r.TakesReturnType → ∀ g, kind.function? w = some g → reads g)
    (session : Session σ) :
    Observes (r.query w : Query σ α) ∨
      ∃ q, Regular reads 2 q ∧ (r.query w : Query σ α) session = q session := by
  cases r with
  | location => exact .inl (NodeKind.location_observes _ w)
  | field f =>
    obtain ⟨q, hkept, hq⟩ := f.read_kept w hreads session
    exact .inr ⟨q, hkept.regular, hq⟩
  | wrapper => exact .inl (.pure w)
  | origin => exact .inl (.pure _)
  | parent => exact .inr ⟨_, (NodeKind.parent_regular _ w).mono (Nat.le_succ 1), rfl⟩
  | children => exact .inr ⟨_, NodeKind.children_regular _ w (hreads trivial), rfl⟩
  | declaration scope position =>
    exact .inr ⟨_, Query.item_regular Query.declaration_regular, rfl⟩
  | classCategory => exact .inr ⟨_, .consult (ClassNode.category_consult w), rfl⟩
  | classConstructor position =>
    exact .inr ⟨_, Query.item_regular fun key => (Query.function_wraps key).regular, rfl⟩
  | primaryConstructor => exact .inr ⟨_, ClassNode.primaryConstructor_regular w, rfl⟩
  | starProjectedType => exact .inr ⟨_, ClassNode.starProjectedType_regular w, rfl⟩
  | functionCategory => exact .inr ⟨_, .consult (FunctionNode.category_consult w), rfl⟩
  | overridden => exact .inr ⟨_, .consult (.throw _), rfl⟩
  | parentDeclaration =>
    exact .inr ⟨_, (Declaration.parentDeclaration_regular _).mono (Nat.le_succ 1), rfl⟩
  | getterReceiver => exact .inr ⟨_, .consult (.resolve _), rfl⟩
  | setterReceiver => exact .inr ⟨_, .consult (.resolve _), rfl⟩
  | render => exact .inr ⟨_, .consult (.bind (TypeReference.record_consult w) fun _ => .pure _), rfl⟩
  | resolve => exact .inr ⟨_, TypeReference.resolve_regular w, rfl⟩
  | defaultArguments => exact .inr ⟨_, .consult (.throw _), rfl⟩
  | isStarProjected => exact .inr ⟨_, ResolvedType.isStarProjected_regular w, rfl⟩

/-! ## Operations -/

/-- One operation of a session. -/
inductive Operation : Type → Type 1
  | wrap {kind : Kind} (w : Wrapping kind) : Operation kind.Wrapper
  | declaration (key : SymbolKey) : Operation Declaration
  | nodeDeclaration (node : NodeId) : Operation (Option Declaration)
  | read {kind : Kind} {α : Type} (h : Handle kind) (r : Reading kind α) : Operation α

def Operation.query : Operation α → Query σ α
  | wrap w => w.query
  | declaration key => Query.declaration key
  | nodeDeclaration node => Query.nodeDeclaration node
  | read h r => do r.query (← Query.resolve h)

/-- A visitor that asks the session nothing. It collects the nodes that it is shown, the latest first,
and stops the walk when it likes. -/
def Visitor.observer (verdict : List NodeId → NodeId → Option GraphError) :
    Visitor σ (List NodeId) Unit where
  other node := do
    let visited := (← get).1
    match verdict visited node with
    | some e => throw e
    | none => Visit.change (node :: ·)

/-- An observer leaves the session as it is. -/
theorem Visitor.observer_after (verdict : List NodeId → NodeId → Option GraphError) (node : NodeId)
    (session : Session σ) (x : List NodeId × SessionState σ) :
    (((observer verdict).other node).after session x).2 = x.2 := by
  simp only [observer, Action.after, Action.bind_apply]
  change (Action.after _ session x).2 = x.2
  cases verdict x.1 node <;> rfl

/-! ## What operations do to a session -/

theorem Reading.query_steps (r : Reading kind α) (w : kind.Wrapper) (session : Session σ)
    (s : SessionState σ) : Steps 2 s ((r.query w).after session s) := by
  have hr := @Reading.query_regular σ α kind (fun _ => True) r w (fun _ _ _ => trivial) session
  rcases hr with hobserves | ⟨q, hregular, hq⟩
  · exact .single (.quiet (hobserves.sameSession session s))
  · have hsteps := hregular.steps session s
    simpa only [Action.after, hq] using hsteps

theorem Operation.query_steps (op : Operation α) (session : Session σ) (s : SessionState σ) :
    Steps 2 s (op.query.after session s) := by
  have hwraps {kind : Kind} (w : Wrapping kind) : Regular (fun _ => True) 2 (w.query : Query σ _) :=
    w.query_wraps.regular
  cases op with
  | wrap w => exact (hwraps w).steps session s
  | declaration key =>
    have hkey : Regular (fun _ => True) 2 (Query.declaration key : Query σ _) :=
      Query.declaration_regular key
    exact hkey.steps session s
  | nodeDeclaration node =>
    exact .single (.quiet ((Query.nodeDeclaration_consult node).sameSession session s))
  | read h r =>
    cases hw : Query.resolve h session s with
    | ok w t =>
      obtain ⟨_, rfl⟩ := Query.resolve_eq_ok hw
      have hquery : (Operation.read h r).query session t = r.query w session t :=
        Action.bind_of_ok hw _
      have hsteps := r.query_steps w session t
      simpa only [Action.after, hquery] using hsteps
    | error e t =>
      obtain ⟨_, _, rfl⟩ := Query.resolve_eq_error hw
      have hquery : (Operation.read h r).query session t = .error e t :=
        Action.bind_of_error hw _
      rw [Action.after_of_error hquery]

end SymbolGraph
