import SymbolGraph.Graph.Children
import SymbolGraph.Graph.Documentation
import SymbolGraph.Graph.Modifiers
import SymbolGraph.Graph.Place
import SymbolGraph.Proofs.Session.Regular

/-!
# The graph is regular

Every way of wrapping, and every field of every wrapper, is a regular query.
-/

namespace SymbolGraph

variable {σ α : Type} {reads : FunctionNode → Prop} {tier : Nat}

/-! ## Wrapping -/

namespace Query

theorem file_wraps (key : FileKey) : Wraps (.node .file) key (file key : Query σ _) := by
  unfold file
  exact .intro (.bind (.inquire (.file key)) fun _ => .pure fun _ => rfl)

theorem classLike_wraps (key : SymbolKey) :
    Wraps (.node .classLike) key (classLike key : Query σ _) := by
  unfold classLike
  refine .intro (.bind (.inquire (.symbol key)) fun symbol => ?_)
  split
  · exact .pure fun _ => rfl
  · exact .throw _

theorem function_wraps (key : SymbolKey) :
    Wraps (.node .function) key (function key : Query σ _) := by
  unfold function
  refine .intro (.bind (.inquire (.symbol key)) fun symbol => ?_)
  split
  · exact .pure fun _ => rfl
  · exact .throw _

theorem property_wraps (key : SymbolKey) :
    Wraps (.node .property) key (property key : Query σ _) := by
  unfold property
  refine .intro (.bind (.inquire (.symbol key)) fun symbol => ?_)
  split
  · exact .pure fun _ => rfl
  · exact .throw _

theorem getter_wraps (receiver : PropertyId) (key : SymbolKey) :
    Wraps (.node .getter) { receiver, symbol := key } (getter receiver key : Query σ _) := by
  unfold getter
  refine .intro (.bind (.inquire (.symbol key)) fun symbol => ?_)
  split
  · exact .pure fun _ => rfl
  · exact .throw _

theorem setter_wraps (receiver : PropertyId) (key : SymbolKey) :
    Wraps (.node .setter) { receiver, symbol := key } (setter receiver key : Query σ _) := by
  unfold setter
  refine .intro (.bind (.inquire (.symbol key)) fun symbol => ?_)
  split
  · exact .pure fun _ => rfl
  · exact .throw _

theorem valueParameter_wraps (key : SymbolKey) (parent : NodeId) :
    Wraps (.node .valueParameter) { symbol := key, parent }
      (valueParameter key parent : Query σ _) := by
  unfold valueParameter
  refine .intro (.bind (.inquire (.symbol key)) fun symbol => ?_)
  split
  · exact .pure fun _ => rfl
  · exact .throw _

theorem typeParameter_wraps (key : SymbolKey) :
    Wraps (.node .typeParameter) key (typeParameter key : Query σ _) := by
  unfold typeParameter
  refine .intro (.bind (.inquire (.symbol key)) fun symbol => ?_)
  split
  · exact .pure fun _ => rfl
  · exact .throw _

theorem declaration_regular (key : SymbolKey) :
    Regular reads tier (declaration key : Query σ _) := by
  refine .bind (.consult (.inquire (.symbol key))) fun symbol => ?_
  split
  · exact .bind (classLike_wraps key).regular fun _ => .consult (.pure _)
  · exact .bind (function_wraps key).regular fun _ => .consult (.pure _)
  · exact .bind (property_wraps key).regular fun _ => .consult (.pure _)
  · exact .bind (typeParameter_wraps key).regular fun _ => .consult (.pure _)
  all_goals exact .consult (.throw _)

theorem nodeDeclaration_consult (node : NodeId) : Consult (nodeDeclaration node : Query σ _) := by
  unfold nodeDeclaration
  split
  · exact .bind (.resolve _) fun _ => .pure _
  · exact .bind (.resolve _) fun _ => .pure _
  · exact .bind (.resolve _) fun _ => .pure _
  · exact .bind (.resolve _) fun _ => .pure _
  · exact .pure _

theorem origin_consult (node : NodeId) : Consult (origin node : Query σ _) :=
  .bind (.resolve _) fun _ => .pure _

theorem typeReference_wraps (type : TypeKey) (parent : Option NodeId) (index : Int) :
    Wraps (.node .typeReference) { type, parent, index }
      (typeReference type parent index : Query σ _) := by
  unfold typeReference
  refine .intro ?_
  cases parent with
  | some node => exact .bind (origin_consult node) fun _ => .pure fun _ => rfl
  | none => exact .bind (.pure _) fun _ => .pure fun _ => rfl

theorem primaryReference_wraps (type : TypeKey) (parent : Option NodeId) :
    Wraps (.node .typeReference) { type, parent, index := -1 }
      (primaryReference type parent : Query σ _) :=
  typeReference_wraps type parent (-1)

theorem resolvedType_wraps (key : TypeKey) :
    Wraps (.resolvedType) key (resolvedType key : Query σ _) := by
  unfold resolvedType
  exact .intro (.bind (.inquire (.type key)) fun _ => .pure fun _ => rfl)

theorem annotationUse_wraps (key : AnnotationKey) (parent : Option NodeId) :
    Wraps (.node .annotationUse) { key, parent } (annotationUse key parent : Query σ _) := by
  unfold annotationUse
  exact .intro (.bind (.inquire (.annotationUse key)) fun _ => .pure fun _ => rfl)

theorem valueArgument_wraps (owner : AnnotationId) (source : ArgumentSource)
    (name : Option String) (value : AnnotationValue) (origin : Origin)
    (position : Option Position) :
    Wraps (.node .valueArgument) { owner, source }
      (valueArgument owner source name value origin position : Query σ _) := by
  unfold valueArgument
  exact .intro (.pure fun _ => rfl)

theorem classifierReference_wraps (key : TypeKey) (owner : TypeReference) :
    Wraps (.node .classifierReference) { type := key, owner := owner.id }
      (classifierReference key owner : Query σ _) := by
  unfold classifierReference
  refine .intro (.bind (.inquire (.type key)) fun type => ?_)
  split
  · exact .pure fun _ => rfl
  · exact .throw _

theorem callableReference_wraps (key : TypeKey) (owner : TypeReference) :
    Wraps (.node .callableReference) { type := key, owner := owner.id }
      (callableReference key owner : Query σ _) := by
  unfold callableReference
  refine .intro (.bind (.inquire (.type key)) fun type => ?_)
  split
  · exact .pure fun _ => rfl
  · exact .throw _

theorem dynamicReference_wraps (owner : TypeReference) :
    Wraps (.node .dynamicReference) owner.id (dynamicReference owner : Query σ _) := by
  unfold dynamicReference
  exact .intro (.pure fun _ => rfl)

end Query

/-! ## Containment -/

theorem SymbolRecord.containerNode_regular (symbol : SymbolRecord) :
    Regular reads tier (symbol.containerNode : Query σ _) := by
  unfold containerNode
  split
  · split
    · exact .bind (Query.file_wraps _).regular fun _ => .consult (.pure _)
    · exact .consult (.pure _)
  · rename_i container _
    refine .bind (.consult (.inquire (.symbol container))) fun outer => ?_
    dsimp only
    split
    · refine .bind ?_ fun property => ?_
      · split
        · exact (Query.property_wraps _).regular
        · exact .consult (.throw _)
      · exact .bind (Query.getter_wraps _ _).regular fun _ => .consult (.pure _)
    · refine .bind ?_ fun property => ?_
      · split
        · exact (Query.property_wraps _).regular
        · exact .consult (.throw _)
      · exact .bind (Query.setter_wraps _ _).regular fun _ => .consult (.pure _)
    · exact .bind (Query.declaration_regular _) fun _ => .consult (.pure _)

namespace Declaration

theorem parent_kept (d : Declaration) : Kept reads (d.node.cell .parent) (d.parent : Query σ _) :=
  .intro rfl (SymbolRecord.containerNode_regular d.symbol)

theorem parent_regular (d : Declaration) : Regular reads 1 (d.parent : Query σ _) :=
  let hcontainer {tier : Nat} : Regular reads tier (d.symbol.containerNode : Query σ _) :=
    d.symbol.containerNode_regular
  .memoize Nat.zero_lt_one (.of_not_returnType rfl) hcontainer (hcontainer.spares (Nat.zero_le _)).keepsEmpty

theorem parentDeclaration_regular (d : Declaration) :
    Regular reads 1 (d.parentDeclaration : Query σ _) := by
  refine .bind (parent_regular d) fun parent => ?_
  cases parent with
  | some parent => exact .consult (Query.nodeDeclaration_consult parent)
  | none => exact .consult (.pure _)

theorem nameUnder_regular {nameOf : Declaration → Query σ (Option String)}
    (h : ∀ outer, Regular reads 2 (nameOf outer)) (d : Declaration) :
    Regular reads 2 (d.nameUnder nameOf) := by
  unfold nameUnder
  split
  · exact .consult (.pure _)
  · refine .bind ((parent_regular d).mono (Nat.le_succ 1)) fun parent => ?_
    split
    · exact .consult (.pure _)
    · split
      · exact .consult (.pure _)
      · refine .bind (.consult (Query.nodeDeclaration_consult _)) fun outer => ?_
        split
        · exact .consult (.pure _)
        · exact .bind (h _) fun _ => .consult (.pure _)

/-- The name of the outer declaration is the last thing that is asked for. -/
theorem nameUnder_keepsEmpty {nameOf : Declaration → Query σ (Option String)} {cell : Cell}
    (hcell : 1 ≤ cell.field.tier) (h : ∀ outer, KeepsEmpty cell (nameOf outer)) (d : Declaration) :
    KeepsEmpty cell (d.nameUnder nameOf) := by
  have hparent : Regular (fun _ => False) 1 (d.parent : Query σ _) := parent_regular d
  unfold nameUnder
  split
  · exact ((Consult.pure _).spares cell).keepsEmpty
  · refine .bind (hparent.spares hcell) fun parent => ?_
    split
    · exact ((Consult.pure _).spares cell).keepsEmpty
    · split
      · exact ((Consult.pure _).spares cell).keepsEmpty
      · refine .bind ((Query.nodeDeclaration_consult _).spares cell) fun outer => ?_
        split
        · exact ((Consult.pure _).spares cell).keepsEmpty
        · exact .bind_pure (h _) _

/-- If a qualified name is not found out, it is because that of an outer declaration is not, and the
names on the whole chain of declarations stay unknown. -/
theorem qualifiedNameWithin_keepsEmpty {cell : Cell} (hcell : 1 ≤ cell.field.tier) (depth : Nat)
    (d : Declaration) : KeepsEmpty cell (d.qualifiedNameWithin depth : Query σ _) := by
  induction depth generalizing d with
  | zero =>
    refine .memoize (nameUnder_keepsEmpty hcell (fun _ => ?_) d)
    exact ((Consult.throw _).spares cell).keepsEmpty
  | succ depth ih => exact .memoize (nameUnder_keepsEmpty hcell ih d)

theorem qualifiedNameWithin_kept (depth : Nat) (d : Declaration) :
    Kept reads (d.node.cell .qualifiedName) (d.qualifiedNameWithin depth : Query σ _) := by
  have hcell : 1 ≤ (d.node.cell .qualifiedName).field.tier := Nat.le_refl 1
  induction depth generalizing d with
  | zero =>
    refine ⟨.of_not_returnType rfl, _, nameUnder_regular (fun _ => .consult (.throw _)) d, ?_, rfl⟩
    exact nameUnder_keepsEmpty hcell (fun _ => ((Consult.throw _).spares _).keepsEmpty) d
  | succ depth ih =>
    refine ⟨.of_not_returnType rfl, _, nameUnder_regular (fun outer => (ih outer hcell).regular) d, ?_, rfl⟩
    exact nameUnder_keepsEmpty hcell (qualifiedNameWithin_keepsEmpty hcell depth) d

end Declaration

theorem NodeKind.parent_regular (kind : NodeKind) (w : kind.Wrapper) :
    Regular reads 1 (kind.parent w : Query σ _) := by
  cases kind with
  | classLike => exact (Declaration.classLike w).parent_regular
  | function => exact (Declaration.function w).parent_regular
  | property => exact (Declaration.property w).parent_regular
  | typeParameter => exact (Declaration.typeParameter w).parent_regular
  | _ => exact .consult (.pure _)

/-! ## Annotations -/

namespace Query

theorem wrapAnnotations_regular (bearer : Option NodeId) (keys : List AnnotationKey) :
    Regular reads tier (wrapAnnotations bearer keys : Query σ _) :=
  .mapM (fun key => (annotationUse_wraps key bearer).regular) keys

theorem selectAnnotations_regular (bearer : NodeId) (wanted : Option UseSiteTarget → Bool)
    (keys : List AnnotationKey) :
    Regular reads tier (selectAnnotations bearer wanted keys : Query σ _) := by
  induction keys with
  | nil => exact .consult (.pure _)
  | cons key keys ih =>
    unfold selectAnnotations
    refine .bind (.consult (.inquire (.annotationUse key))) fun record => ?_
    split
    · refine .bind (annotationUse_wraps key bearer).regular fun first => ?_
      exact .bind ih fun rest => .consult (.pure _)
    · exact ih

end Query

theorem FileNode.annotations_kept (f : FileNode) :
    Kept reads (f.id.cell .annotations) (f.annotations : Query σ _) :=
  .intro rfl (Query.wrapAnnotations_regular _ _)

theorem Declaration.annotations_kept (d : Declaration) :
    Kept reads (d.node.cell .annotations) (d.annotations : Query σ _) :=
  .intro rfl (Query.selectAnnotations_regular _ _ _)

theorem Accessor.annotations_kept (a : Accessor) (bearer : NodeId)
    (excluded pulled : UseSiteTarget) :
    Kept reads (bearer.cell .annotations) (a.annotations bearer excluded pulled : Query σ _) := by
  refine .intro rfl ?_
  refine .bind (Query.selectAnnotations_regular _ _ _) fun own => ?_
  refine .bind (.consult (.resolve _)) fun property => ?_
  exact .bind (Query.selectAnnotations_regular _ _ _) fun pulled => .consult (.pure _)

theorem ValueParameterNode.annotations_kept (p : ValueParameterNode) :
    Kept reads (p.id.cell .annotations) (p.annotations : Query σ _) := by
  refine .intro rfl ?_
  refine .bind (Query.wrapAnnotations_regular _ _) fun own => ?_
  split
  · refine .bind (.consult (.resolve _)) fun setter => ?_
    refine .bind (.consult (.resolve _)) fun property => ?_
    exact .bind (Query.selectAnnotations_regular _ _ _) fun pulled => .consult (.pure _)
  · exact .consult (.pure _)

theorem TypeReference.annotations_kept (r : TypeReference) :
    Kept reads (r.id.cell .annotations) (r.annotations : Query σ _) := by
  refine .intro rfl ?_
  refine .bind (.consult (.inquire (.type r.type))) fun type => ?_
  exact Query.wrapAnnotations_regular _ _

theorem ResolvedType.annotations_kept (t : ResolvedType) :
    Kept reads (t.id.cell .annotations) (t.annotations : Query σ _) :=
  .intro rfl (Query.wrapAnnotations_regular _ _)

/-! ## Modifiers -/

theorem ClassNode.category_consult (c : ClassNode) : Consult (c.category : Query σ _) := by
  unfold category
  split
  · exact .pure _
  · exact .throw _

theorem ClassNode.modifiers_kept (c : ClassNode) :
    Kept reads (c.id.cell .modifiers) (c.modifiers : Query σ _) :=
  .intro rfl (.bind (.consult c.category_consult) fun _ => .consult (.pure _))

theorem FunctionNode.modifiers_kept (f : FunctionNode) :
    Kept reads (f.id.cell .modifiers) (f.modifiers : Query σ _) :=
  .intro rfl (.consult (.pure _))

theorem PropertyNode.modifiers_kept (p : PropertyNode) :
    Kept reads (p.id.cell .modifiers) (p.modifiers : Query σ _) :=
  .intro rfl (.consult (.pure _))

theorem TypeParameterNode.modifiers_kept (p : TypeParameterNode) :
    Kept reads (p.id.cell .modifiers) (p.modifiers : Query σ _) :=
  .intro rfl (.consult (.pure _))

theorem Accessor.modifiers_kept (a : Accessor) (node : NodeId) :
    Kept reads (node.cell .modifiers) (a.modifiers node : Query σ _) := by
  refine .intro rfl ?_
  dsimp only
  split
  · refine .bind (.consult (.resolve _)) fun property => ?_
    refine .bind (Declaration.parentDeclaration_regular _) fun outer => ?_
    split
    · exact .bind (.consult (ClassNode.category_consult _)) fun _ => .consult (.pure _)
    · exact .consult (.pure _)
  · exact .consult (.pure _)

theorem TypeReference.modifiers_kept (r : TypeReference) :
    Kept reads (r.id.cell .modifiers) (r.modifiers : Query σ _) := by
  refine .intro rfl ?_
  refine .bind (.consult (.inquire (.type r.type))) fun type => ?_
  split
  · exact .consult (.pure _)
  · exact .consult (.pure _)

/-! ## Signatures -/

namespace Query

theorem typeParameters_kept (owner : NodeId) (keys : List SymbolKey) :
    Kept reads (owner.cell .typeParameters) (typeParameters owner keys : Query σ _) :=
  .intro rfl (.mapM (fun key => (typeParameter_wraps key).regular) keys)

/-- The reference to a type that may be missing. -/
theorem reference?_regular (type : Option TypeKey) (owner : NodeId) :
    Regular reads tier (match type with
      | some type => return some (← primaryReference type owner)
      | none => return none : Query σ (Option TypeReference)) := by
  split
  · exact .bind (primaryReference_wraps _ _).regular fun _ => .consult (.pure _)
  · exact .consult (.pure _)

theorem receiverType_kept (owner : NodeId) (type : Option TypeKey) :
    Kept reads (owner.cell .receiverType) (receiverType owner type : Query σ _) :=
  .intro rfl (reference?_regular type owner)

theorem entries_regular (owner : NodeId) (index : Nat) (types : List TypeKey) :
    Regular reads tier (entries owner index types : Query σ _) := by
  induction types generalizing index with
  | nil => exact .consult (.pure _)
  | cons type types ih =>
    refine .bind (typeReference_wraps type owner index).regular fun first => ?_
    exact .bind (ih (index + 1)) fun rest => .consult (.pure _)

end Query

theorem ClassNode.superTypes_kept (c : ClassNode) :
    Kept reads (c.id.cell .superTypes) (c.superTypes : Query σ _) :=
  .intro rfl (Query.entries_regular _ _ _)

theorem ClassNode.primaryConstructor_regular (c : ClassNode) :
    Regular reads tier (c.primaryConstructor : Query σ _) := by
  unfold primaryConstructor
  split
  · exact .consult (.pure _)
  · exact .bind (Query.function_wraps _).regular fun _ => .consult (.pure _)

theorem ClassNode.starProjectedType_regular (c : ClassNode) :
    Regular reads tier (c.starProjectedType : Query σ _) :=
  .bind (.consult (.inquire (.starProjectedType c.key))) fun type =>
    (Query.resolvedType_wraps type).regular

theorem TypeParameterNode.bounds_kept (p : TypeParameterNode) :
    Kept reads (p.id.cell .bounds) (p.bounds : Query σ _) :=
  .intro rfl (Query.entries_regular _ _ _)

namespace FunctionNode

theorem parameters_kept (f : FunctionNode) :
    Kept reads (f.id.cell .valueParameters) (f.parameters : Query σ _) :=
  .intro rfl (.mapM (fun key => (Query.valueParameter_wraps key _).regular) _)

/-- The words of an error may name the container of the function. -/
theorem blame_consult (f : FunctionNode) (e : String → GraphError) :
    Consult (f.context >>= fun context => (throw (e context) : Query σ α)) := by
  cases hcontainer : f.symbol.container with
  | none =>
    rw [context, hcontainer]
    exact .bind (.pure _) fun _ => .throw _
  | some container =>
    have hcontext : (f.context : Query σ String) =
        Query.ask (·.symbol container) >>= fun answer => pure (answer.toOption.elim
          s!"function `{f.simpleName}` ({f.symbol.kind.name})"
          fun outer => s!"function `{f.simpleName}` declared in `{outer.displayName}`") := by
      rw [context, hcontainer]
      refine congrArg (Query.ask (·.symbol container) >>= ·) ?_
      funext answer
      cases answer <;> rfl
    rw [hcontext, bind_assoc]
    exact .blame container _

theorem returnTypeKey_regular_of_constructor (f : FunctionNode) (h : f.details.isConstructor) :
    Regular reads 1 (f.returnTypeKey : Query σ _) := by
  unfold returnTypeKey
  rw [if_pos h]
  refine .bind (Declaration.parent_regular _) fun parent => ?_
  split
  · refine .bind (.consult (.resolve _)) fun owner => ?_
    exact .consult (.inquire (.starProjectedType owner.key))
  · exact .consult (f.blame_consult _)

theorem returnType_kept (f : FunctionNode) (h : reads f) :
    Kept reads (f.id.cell .returnType) (f.returnType : Query σ _) := by
  refine .of_belongsTo (fun _ _ => ⟨f, h, rfl⟩) ?_
  by_cases hconstructor : f.details.isConstructor
  · refine .bind (.prepare h) fun _ => ?_
    refine .bind (f.returnTypeKey_regular_of_constructor hconstructor) fun key => ?_
    exact (Query.primaryReference_wraps _ _).regular
  · have hkey : (f.returnTypeKey : Query σ _) = Query.request (·.returnType f.key) := by
      rw [returnTypeKey, if_neg hconstructor]
    rw [hkey, ← bind_assoc]
    exact .bind (.prepared h) fun key => (Query.primaryReference_wraps _ _).regular

theorem category_consult (f : FunctionNode) : Consult (f.category : Query σ _) := by
  unfold category
  split
  · exact .pure _
  · exact .pure _
  · exact .pure _
  · exact f.blame_consult _

end FunctionNode

namespace PropertyNode

theorem type_kept (p : PropertyNode) : Kept reads (p.id.cell .type) (p.type : Query σ _) :=
  .intro rfl (Query.primaryReference_wraps _ _).regular

theorem getter_kept (p : PropertyNode) :
    Kept reads (p.id.cell .getter) (p.getter : Query σ _) := by
  refine .intro rfl ?_
  split
  · exact .bind (Query.getter_wraps _ _).regular fun _ => .consult (.pure _)
  · exact .consult (.pure _)

theorem setter_kept (p : PropertyNode) :
    Kept reads (p.id.cell .setter) (p.setter : Query σ _) := by
  refine .intro rfl ?_
  split
  · exact .bind (Query.setter_wraps _ _).regular fun _ => .consult (.pure _)
  · exact .consult (.pure _)

end PropertyNode

theorem GetterNode.returnType_kept (g : GetterNode) :
    Kept reads (g.id.cell .returnType) (g.returnType : Query σ _) :=
  .intro rfl (Query.primaryReference_wraps _ _).regular

theorem SetterNode.parameter_kept (s : SetterNode) :
    Kept reads (s.id.cell .parameter) (s.parameter : Query σ _) := by
  refine .intro rfl ?_
  split
  · exact (Query.valueParameter_wraps _ _).regular
  · exact .consult (.throw _)

theorem ValueParameterNode.type_kept (p : ValueParameterNode) :
    Kept reads (p.id.cell .type) (p.type : Query σ _) :=
  .intro rfl (Query.primaryReference_wraps _ _).regular

/-! ## References and types -/

theorem Query.typeArguments_regular (owner : Option NodeId)
    (arguments : List (TypeArgument TypeKey)) :
    Regular reads tier (Query.typeArguments owner arguments : Query σ _) := by
  induction arguments with
  | nil => exact .consult (.pure _)
  | cons argument arguments ih =>
    unfold Query.typeArguments
    cases argument with
    | star =>
      exact .bind (.consult (.pure _)) fun _ => .bind ih fun _ => .consult (.pure _)
    | projection variance type =>
      refine .bind (primaryReference_wraps type owner).regular fun reference => ?_
      exact .bind (.consult (.pure _)) fun _ => .bind ih fun _ => .consult (.pure _)

namespace TypeReference

theorem record_consult (r : TypeReference) : Consult (r.record : Query σ _) :=
  .inquire (.type r.type)

theorem elementOf_regular (r : TypeReference) (type : TypeRecord) :
    Regular reads tier (r.elementOf type : Query σ _) := by
  unfold elementOf
  split
  · exact .bind (Query.callableReference_wraps _ _).regular fun _ => .consult (.pure _)
  · exact .bind (Query.dynamicReference_wraps _).regular fun _ => .consult (.pure _)
  · exact .bind (Query.classifierReference_wraps _ _).regular fun _ => .consult (.pure _)
  · rename_i lower _ _
    refine .bind (.consult (.inquire (.type lower))) fun bound => ?_
    split
    · exact .bind (Query.classifierReference_wraps _ _).regular fun _ => .consult (.pure _)
    · exact .consult (.throw _)
  · exact .consult (.pure _)
  · exact .consult (.pure _)
  · exact .consult (.pure _)
  · exact .consult (.throw _)
  · exact .consult (.throw _)

theorem element_kept (r : TypeReference) :
    Kept reads (r.id.cell .element) (r.element : Query σ _) := by
  refine .intro rfl ?_
  split
  · exact .consult (.pure _)
  · exact .bind (.consult r.record_consult) fun type => r.elementOf_regular type

theorem resolve_regular (r : TypeReference) : Regular reads tier (r.resolve : Query σ _) := by
  refine .bind (.consult r.record_consult) fun type => ?_
  split
  · exact .consult (.pure _)
  · exact .consult (.pure _)
  · refine .bind (.consult (.glance (.classifier r.type))) fun classifier => ?_
    split
    · exact .consult (.pure _)
    · exact .bind (Query.resolvedType_wraps _).regular fun _ => .consult (.pure _)

end TypeReference

theorem ClassifierReference.typeArguments_kept (c : ClassifierReference) :
    Kept reads (c.id.cell .typeArguments) (c.typeArguments : Query σ _) :=
  .intro rfl (Query.typeArguments_regular _ _)

namespace CallableReference

theorem receiverType_kept (c : CallableReference) :
    Kept reads (c.id.cell .receiverType) (c.receiverType : Query σ _) :=
  .intro rfl (Query.reference?_regular _ _)

theorem functionParameters_kept (c : CallableReference) :
    Kept reads (c.id.cell .functionParameters) (c.functionParameters : Query σ _) :=
  .intro rfl (.mapM (fun _ => (Query.primaryReference_wraps _ _).regular) _)

theorem returnType_kept (c : CallableReference) :
    Kept reads (c.id.cell .returnType) (c.returnType : Query σ _) :=
  .intro rfl (Query.primaryReference_wraps _ _).regular

end CallableReference

namespace ResolvedType

theorem declaration_kept (t : ResolvedType) :
    Kept reads (t.id.cell .declaration) (t.declaration : Query σ _) := by
  refine .intro rfl ?_
  refine .bind (.consult (.glance (.classifier t.key))) fun classifier => ?_
  split
  · exact Query.declaration_regular _
  · exact .consult (.throw _)

theorem argumentShape_consult (t : ResolvedType) : Consult (t.argumentShape : Query σ _) := by
  unfold argumentShape
  split
  · rename_i lower _ _
    exact .bind (.inquire (.type lower)) fun _ => .pure _
  · rename_i inner _
    exact .bind (.inquire (.type inner)) fun _ => .pure _
  · exact .pure _

theorem arguments_kept (t : ResolvedType) :
    Kept reads (t.id.cell .typeArguments) (t.arguments : Query σ _) := by
  refine .intro rfl ?_
  refine .bind (.consult t.argumentShape_consult) fun shape => ?_
  split
  · exact Query.typeArguments_regular _ _
  · exact Query.typeArguments_regular _ _
  · exact .consult (.pure _)

theorem isStarProjected_regular (t : ResolvedType) :
    Regular reads 2 (t.isStarProjected : Query σ _) :=
  .bind t.arguments_kept.regular fun _ => .consult (.pure _)

end ResolvedType

/-! ## Arguments of annotations -/

namespace AnnotationNode

theorem writtenArguments_regular (a : AnnotationNode) (position : Nat)
    (arguments : List ArgumentRecord) :
    Regular reads tier (a.writtenArguments position arguments : Query σ _) := by
  induction arguments generalizing position with
  | nil => exact .consult (.pure _)
  | cons argument arguments ih =>
    refine .bind (Query.valueArgument_wraps _ _ _ _ _ _).regular fun first => ?_
    exact .bind (ih (position + 1)) fun rest => .consult (.pure _)

theorem soleConstructor_consult (a : AnnotationNode) :
    Consult (a.soleConstructor : Query σ _) := by
  unfold soleConstructor
  split
  · exact .pure _
  · rename_i className _
    refine .bind (.glance (.classByName className)) fun key => ?_
    split
    · exact .pure _
    · rename_i key
      refine .bind (.inquire (.symbol key)) fun symbol => ?_
      split
      · split
        · rename_i constructor _
          exact .bind (.inquire (.symbol constructor)) fun _ => .pure _
        · exact .pure _
      · exact .throw _

theorem parametersOf_consult (a : AnnotationNode) (constructor : SymbolRecord) :
    Consult (a.parametersOf constructor : Query σ _) := by
  unfold parametersOf
  split
  · exact .mapM (fun key => .bind (.inquire (.symbol key)) fun _ => .pure _) _
  · exact .throw _

theorem defaultValue_consult (parameter : SymbolRecord) :
    Consult (defaultValue parameter : Query σ _) := by
  unfold defaultValue
  split
  · exact .pure _
  · split
    · split
      · exact .pure _
      · rename_i expression _
        exact .glance (.evaluateConstant expression)
    · exact .throw _

theorem defaultsFor_regular (a : AnnotationNode) (covered : List String)
    (parameters : List (SymbolKey × SymbolRecord)) :
    Regular reads tier (a.defaultsFor covered parameters : Query σ _) := by
  induction parameters with
  | nil => exact .consult (.pure _)
  | cons parameter parameters ih =>
    unfold defaultsFor
    split
    · exact ih
    · split
      · exact ih
      · refine .bind (.consult (defaultValue_consult _)) fun value => ?_
        split
        · exact ih
        · refine .bind (Query.valueArgument_wraps _ _ _ _ _ _).regular fun first => ?_
          exact .bind ih fun rest => .consult (.pure _)

theorem arguments_kept (a : AnnotationNode) :
    Kept reads (a.id.cell .arguments) (a.arguments : Query σ _) := by
  refine .intro rfl ?_
  refine .bind (a.writtenArguments_regular _ _) fun written => ?_
  refine .bind (.consult a.soleConstructor_consult) fun constructor => ?_
  split
  · exact .consult (.pure _)
  · refine .bind (.consult (a.parametersOf_consult _)) fun parameters => ?_
    exact .bind (a.defaultsFor_regular _ _) fun _ => .consult (.pure _)

theorem annotationType_kept (a : AnnotationNode) :
    Kept reads (a.id.cell .annotationType) (a.annotationType : Query σ _) := by
  refine .intro rfl ?_
  split
  · exact .consult (.pure _)
  · rename_i className _
    refine .bind (.consult (.glance (.classByName className))) fun key => ?_
    split
    · exact .consult (.pure _)
    · rename_i key
      refine .bind (.consult (.inquire (.classType key))) fun type => ?_
      exact .bind (Query.primaryReference_wraps _ _).regular fun _ => .consult (.pure _)

end AnnotationNode

/-! ## Places -/

theorem Query.locate_observes (position : Option Position) :
    Observes (Query.locate position : Query σ _) := by
  cases position with
  | none => exact .pure _
  | some position =>
    refine .bind (.inquire (.file position.file)) fun file => ?_
    split
    · exact .pure _
    · refine .bind (.glance (.lineCol position.file position.offset)) fun place => ?_
      split
      · exact .pure _
      · exact .pure _

theorem NodeKind.ownLocation_observes (kind : NodeKind) (w : kind.Wrapper) :
    Observes (kind.ownLocation w : Query σ _) := by
  cases kind with
  | file | typeReference | classifierReference | callableReference | dynamicReference =>
    exact .pure _
  | _ => exact Query.locate_observes _

theorem NodeId.entryPosition_observes (node : NodeId) (entry : Nat) :
    Observes (node.entryPosition entry : Query σ _) := by
  unfold entryPosition
  split
  · exact .bind (.find? _) fun _ => .pure _
  · exact .bind (.find? _) fun _ => .pure _
  · exact .pure _

theorem TypeReference.locationWithin_observes (steps : Nat) (r : TypeReference) :
    Observes (r.locationWithin steps : Query σ _) := by
  induction steps generalizing r with
  | zero => exact .pure _
  | succ steps ih =>
    unfold locationWithin
    split
    · exact .pure _
    · split
      · exact .bind (NodeId.entryPosition_observes _ _) fun _ => Query.locate_observes _
      · refine .bind (.find? _) fun owner => ?_
        split
        · exact .pure _
        · split
          · exact NodeKind.ownLocation_observes _ _
          · refine .bind (.find? _) fun above => ?_
            split
            · exact .pure _
            · exact ih _

/-- A place is always told, if only as absent. -/
theorem NodeKind.location_observes (kind : NodeKind) (w : kind.Wrapper) :
    Observes (kind.location w : Query σ _) := by
  unfold location
  split
  · exact kind.ownLocation_observes w
  · refine .bind (.find? _) fun reference => ?_
    split
    · exact .pure _
    · exact .bind .get fun _ => TypeReference.locationWithin_observes _ _

/-! ## Documentation -/

theorem FunctionNode.docString_kept (f : FunctionNode) :
    Kept reads (f.id.cell .docString) (f.docString : Query σ _) := by
  refine .intro rfl ?_
  split
  · refine .bind (Declaration.parent_regular _) fun parent => ?_
    split
    · exact .bind (.consult (.resolve _)) fun _ => .consult (.pure _)
    · exact .consult (.pure _)
  · exact .consult (.pure _)

/-! ## Children -/

theorem Query.declarationNodes_regular (keys : List SymbolKey) :
    Regular reads tier (Query.declarationNodes keys : Query σ _) :=
  .mapM (fun _ => .bind (Query.declaration_regular _) fun _ => .consult (.pure _)) keys

theorem FileNode.children_regular (f : FileNode) : Regular reads 2 (f.children : Query σ _) := by
  refine .bind f.annotations_kept.regular fun annotations => ?_
  exact .bind (Query.declarationNodes_regular _) fun declarations => .consult (.pure _)

theorem ClassNode.children_regular (c : ClassNode) : Regular reads 2 (c.children : Query σ _) := by
  refine .bind (Declaration.annotations_kept _).regular fun annotations => ?_
  refine .bind (Query.typeParameters_kept _ _).regular fun typeParameters => ?_
  refine .bind c.superTypes_kept.regular fun superTypes => ?_
  exact .bind (Query.declarationNodes_regular _) fun declarations => .consult (.pure _)

theorem FunctionNode.children_regular (f : FunctionNode) (h : reads f) :
    Regular reads 2 (f.children : Query σ _) := by
  refine .bind (Declaration.annotations_kept _).regular fun annotations => ?_
  refine .bind (Query.typeParameters_kept _ _).regular fun typeParameters => ?_
  refine .bind (Query.receiverType_kept _ _).regular fun receiver => ?_
  refine .bind f.parameters_kept.regular fun parameters => ?_
  refine .bind (f.returnType_kept h).regular fun returnType => ?_
  exact .bind (Query.declarationNodes_regular _) fun declarations => .consult (.pure _)

theorem PropertyNode.children_regular (p : PropertyNode) :
    Regular reads 2 (p.children : Query σ _) := by
  refine .bind (Declaration.annotations_kept _).regular fun annotations => ?_
  refine .bind (Query.typeParameters_kept _ _).regular fun typeParameters => ?_
  refine .bind (Query.receiverType_kept _ _).regular fun receiver => ?_
  refine .bind p.type_kept.regular fun type => ?_
  refine .bind p.getter_kept.regular fun getter => ?_
  exact .bind p.setter_kept.regular fun setter => .consult (.pure _)

theorem GetterNode.children_regular (g : GetterNode) :
    Regular reads 2 (g.children : Query σ _) := by
  refine .bind (g.toAccessor.annotations_kept _ _ _).regular fun annotations => ?_
  exact .bind g.returnType_kept.regular fun returnType => .consult (.pure _)

theorem SetterNode.children_regular (s : SetterNode) :
    Regular reads 2 (s.children : Query σ _) := by
  refine .bind (s.toAccessor.annotations_kept _ _ _).regular fun annotations => ?_
  exact .bind s.parameter_kept.regular fun parameter => .consult (.pure _)

theorem ValueParameterNode.children_regular (p : ValueParameterNode) :
    Regular reads 2 (p.children : Query σ _) := by
  refine .bind p.annotations_kept.regular fun annotations => ?_
  exact .bind p.type_kept.regular fun type => .consult (.pure _)

theorem TypeParameterNode.children_regular (p : TypeParameterNode) :
    Regular reads 2 (p.children : Query σ _) := by
  refine .bind (Declaration.annotations_kept _).regular fun annotations => ?_
  exact .bind p.bounds_kept.regular fun bounds => .consult (.pure _)

theorem TypeReference.children_regular (r : TypeReference) :
    Regular reads 2 (r.children : Query σ _) := by
  refine .bind r.annotations_kept.regular fun annotations => ?_
  exact .bind r.element_kept.regular fun element => .consult (.pure _)

theorem ClassifierReference.children_regular (c : ClassifierReference) :
    Regular reads 2 (c.children : Query σ _) :=
  .bind c.typeArguments_kept.regular fun _ => .consult (.pure _)

theorem CallableReference.children_regular (c : CallableReference) :
    Regular reads 2 (c.children : Query σ _) := by
  refine .bind c.receiverType_kept.regular fun receiver => ?_
  refine .bind c.functionParameters_kept.regular fun parameters => ?_
  exact .bind c.returnType_kept.regular fun returnType => .consult (.pure _)

theorem AnnotationNode.children_regular (a : AnnotationNode) :
    Regular reads 2 (a.children : Query σ _) := by
  refine .bind a.annotationType_kept.regular fun type => ?_
  exact .bind a.arguments_kept.regular fun arguments => .consult (.pure _)

/-- The function that a wrapper is, if it is one. -/
def Kind.function? : (kind : Kind) → kind.Wrapper → Option FunctionNode
  | .node .function, w => some w
  | _, _ => none

/-- The children of a wrapper. Only those of a function need a return type. -/
theorem NodeKind.children_regular (kind : NodeKind) (w : kind.Wrapper)
    (h : ∀ f, (Kind.node kind).function? w = some f → reads f) :
    Regular reads 2 (kind.children w : Query σ _) := by
  cases kind with
  | file => exact FileNode.children_regular w
  | classLike => exact ClassNode.children_regular w
  | function => exact FunctionNode.children_regular w (h w rfl)
  | property => exact PropertyNode.children_regular w
  | getter => exact GetterNode.children_regular w
  | setter => exact SetterNode.children_regular w
  | valueParameter => exact ValueParameterNode.children_regular w
  | typeParameter => exact TypeParameterNode.children_regular w
  | typeReference => exact TypeReference.children_regular w
  | classifierReference => exact ClassifierReference.children_regular w
  | callableReference => exact CallableReference.children_regular w
  | annotationUse => exact AnnotationNode.children_regular w
  | dynamicReference => exact .consult (.pure _)
  | valueArgument => exact .consult (.pure _)

end SymbolGraph
