import SymbolGraph.Proofs.Linked.Wrapping
import SymbolGraph.Proofs.Session.Operation

/-!
# Fields in linked sessions

Whatever field of a wrapper of the session is read, the session stays linked, and the value names only
nodes of the session. Nodes are made for the wrapper that is read, so no caller has to be trusted.
-/

namespace SymbolGraph

variable {σ α : Type} {session : Session σ} {honest : Prop} {caches : Caches} {kind : Kind}
  {field : Field}

/-! ## Containment -/

theorem SymbolRecord.containerNode_links (symbol : SymbolRecord) :
    Links session honest caches symbol.containerNode (.option .node) := by
  unfold containerNode
  cases symbol.container with
  | none =>
    cases symbol.file with
    | none => exact .pure Fact.option_none
    | some file => exact .map (Query.file_links file) fun hw => Fact.option_some hw.node
  | some key =>
    refine .bind (Links.consult (.inquire (.symbol key))) fun {outer _} _ _ => ?_
    cases outer.details
    case getter =>
      cases outer.container with
      | none => exact .throw_bind
      | some property =>
        refine .bind (Query.property_links property) fun {p _} _ hp => ?_
        exact .map (Query.getter_links (fun _ => ⟨p, hp⟩) key) fun hw => Fact.option_some hw.node
    case setter =>
      cases outer.container with
      | none => exact .throw_bind
      | some property =>
        refine .bind (Query.property_links property) fun {p _} _ hp => ?_
        exact .map (Query.setter_links (fun _ => ⟨p, hp⟩) key) fun hw => Fact.option_some hw.node
    all_goals exact .map (Query.declaration_links key) fun hd => Fact.option_some hd.node

namespace Declaration

theorem parent_links (d : Declaration) :
    Links session honest caches d.parent (.option .node) :=
  .memoize d.symbol.containerNode_links

theorem parentDeclaration_links (d : Declaration) :
    Links session honest caches d.parentDeclaration (.option .declaration) := by
  refine .bind d.parent_links fun {parent _} _ _ => ?_
  cases parent with
  | none => exact .pure Fact.option_none
  | some parent => exact Query.nodeDeclaration_links parent

theorem nameUnder_links (d : Declaration) {nameOf : Declaration → Query σ (Option String)}
    (h : ∀ outer caches, Links session honest caches (nameOf outer) .any) :
    Links session honest caches (d.nameUnder nameOf) .any := by
  unfold nameUnder
  split
  · exact .pure trivial
  · refine .bind d.parent_links fun {parent _} _ _ => ?_
    cases parent with
    | none => exact .pure trivial
    | some parent =>
      dsimp only
      split
      · exact .pure trivial
      · refine .bind (Query.nodeDeclaration_links parent) fun {outer _} _ _ => ?_
        cases outer with
        | none => exact .pure trivial
        | some outer => exact .map (h outer _) id

theorem qualifiedNameWithin_links (depth : Nat) (d : Declaration) :
    Links session honest caches (d.qualifiedNameWithin depth) .any := by
  induction depth generalizing caches d with
  | zero => exact Links.memoize (d.nameUnder_links fun _ _ => .throw _)
  | succ depth ih => exact Links.memoize (d.nameUnder_links fun outer _ => ih outer)

end Declaration

/-! ## Annotations -/

theorem Declaration.annotations_links {d : Declaration} (hd : d.Issued caches) :
    Links session honest caches d.annotations (.each (.known (.node .annotationUse))) :=
  .memoize (Query.selectAnnotations_links hd.node _ _)

theorem Accessor.annotations_links (a : Accessor) {bearer : NodeId} (hbearer : bearer.Issued caches)
    (excluded pulled : UseSiteTarget) :
    Links session honest caches (a.annotations bearer excluded pulled)
      (.each (.known (.node .annotationUse))) := by
  refine .memoize (.bind (Query.selectAnnotations_links hbearer _ _) fun hgrows hown => ?_)
  refine .bind (Links.resolve _) fun hgrows' _ => ?_
  have hgrows := hgrows.trans hgrows'
  refine .bind (Query.selectAnnotations_links (hbearer.grows hgrows) _ _) fun hlater hpulled => ?_
  exact .pure (List.forall_mem_append.mpr ⟨Fact.grows _ hown (hgrows'.trans hlater), hpulled⟩)

theorem ValueParameterNode.annotations_links {p : ValueParameterNode} (hp : caches.Issued p.id p) :
    Links session honest caches p.annotations (.each (.known (.node .annotationUse))) := by
  refine .memoize (.bind (Query.wrapAnnotations_links ?_ _) fun {own _} hgrows hown => ?_)
  · rintro _ _ ⟨⟩
    exact hp.node
  · cases p.parent.kind
    case setter =>
      refine .bind (Links.resolve _) fun hgrows' _ => .bind (Links.resolve _) fun hgrows'' _ => ?_
      have hsince := hgrows'.trans hgrows''
      have hp := hp.node.grows (hgrows.trans hsince)
      refine .bind (Query.selectAnnotations_links hp _ _) fun hlater hpulled => ?_
      exact .pure (List.forall_mem_append.mpr ⟨Fact.grows _ hown (hsince.trans hlater), hpulled⟩)
    all_goals exact .pure hown

/-! ## Modifiers and documentation -/

theorem Accessor.modifiers_links (a : Accessor) (node : NodeId) :
    Links session honest caches (a.modifiers node) .any := by
  refine Links.memoize ?_
  dsimp only
  split
  · refine .bind (Links.resolve _) fun {property _} _ _ => ?_
    refine .bind (Declaration.parentDeclaration_links _) fun _ _ => ?_
    split
    · exact Links.consult (.bind (ClassNode.category_consult _) fun _ => .pure _)
    · exact .pure trivial
  · exact .pure trivial

theorem FunctionNode.docString_links (f : FunctionNode) :
    Links session honest caches f.docString .any := by
  refine Links.memoize ?_
  split
  · refine .bind (Declaration.parent_links _) fun _ _ => ?_
    split
    · exact .map (Links.resolve _) fun _ => trivial
    · exact .pure trivial
  · exact .pure trivial

theorem TypeReference.modifiers_links (r : TypeReference) :
    Links session honest caches r.modifiers .any := by
  refine Links.memoize (.bind (Links.consult (.inquire (.type r.type))) fun _ _ => ?_)
  split <;> exact .pure trivial

/-! ## Signatures -/

theorem Query.reference?_links (owner : NodeId) (type : Option TypeKey) :
    Links session honest caches
      (match type with
        | some type => return some (← primaryReference type owner)
        | none => return none)
      (.option (.known (.node .typeReference))) := by
  cases type with
  | none => exact .pure Fact.option_none
  | some type => exact .map (primaryReference_links type owner) fun hw => Fact.option_some hw

namespace FunctionNode

theorem returnTypeKey_links (f : FunctionNode) :
    Links session honest caches f.returnTypeKey .any := by
  unfold returnTypeKey
  split
  · refine .bind (Declaration.parent_links _) fun _ _ => ?_
    split
    · refine Links.consult (.bind (.resolve _) fun owner => ?_)
      exact .inquire (.starProjectedType owner.key)
    · exact Links.consult (f.blame_consult _)
  · refine Sustains.of_sameSession Linked.of_sameSession fun s => ?_
    rw [Action.after, Query.request_apply]
    rcases session.oracle.returnType f.key s.oracle with ⟨_ | _, _⟩ <;> exact ⟨rfl, rfl⟩

theorem returnType_links (f : FunctionNode) :
    Links session honest caches f.returnType (.known (.node .typeReference)) := by
  refine .memoize (.bind (F := .any) ?_ fun _ _ => ?_)
  · exact Sustains.of_sameSession Linked.of_sameSession fun s => f.prepare_sameSession session s
  · exact .bind f.returnTypeKey_links fun _ _ => Query.primaryReference_links _ _

theorem parameters_links {f : FunctionNode} (hf : caches.Issued f.id f) :
    Links session honest caches f.parameters (.each (.known (.node .valueParameter))) :=
  .memoize (.mapM_each (fun key => Query.valueParameter_links key fun _ => hf.node) _)

end FunctionNode

namespace PropertyNode

variable {p : PropertyNode}

theorem getter_links (hp : caches.Issued p.id p) :
    Links session honest caches p.getter (.option (.known (.node .getter))) := by
  refine .memoize ?_
  split
  · exact .map (Query.getter_links (fun _ => ⟨p, hp⟩) _) fun hw => Fact.option_some hw
  · exact .pure Fact.option_none

theorem setter_links (hp : caches.Issued p.id p) :
    Links session honest caches p.setter (.option (.known (.node .setter))) := by
  refine .memoize ?_
  split
  · exact .map (Query.setter_links (fun _ => ⟨p, hp⟩) _) fun hw => Fact.option_some hw
  · exact .pure Fact.option_none

end PropertyNode

theorem SetterNode.parameter_links {s : SetterNode} (hs : caches.Issued s.id s) :
    Links session honest caches s.parameter (.known (.node .valueParameter)) := by
  refine .memoize ?_
  split
  · exact Query.valueParameter_links _ fun _ => hs.node
  · exact .throw _

/-! ## References and types -/

namespace TypeReference

variable {r : TypeReference}

theorem annotations_links (hr : caches.Issued r.id r) :
    Links session honest caches r.annotations (.each (.known (.node .annotationUse))) := by
  refine .memoize (.bind (Links.consult (.inquire (.type r.type))) fun hgrows _ => ?_)
  refine Query.wrapAnnotations_links ?_ _
  rintro _ _ ⟨⟩
  exact hr.node.grows hgrows

theorem elementOf_links (hr : caches.Issued r.id r) (type : TypeRecord) :
    Links session honest caches (r.elementOf type) (.option .element) := by
  unfold elementOf
  cases type.shape
  case functional =>
    exact .map (Query.callableReference_links r.type hr) fun hw => Fact.option_some hw
  case dynamic => exact .map (Query.dynamicReference_links hr) fun hw => Fact.option_some hw
  case classType =>
    exact .map (Query.classifierReference_links r.type hr) fun hw => Fact.option_some hw
  case flexible lower _ =>
    refine .bind (Links.consult (.inquire (.type lower))) fun {bound _} hgrows _ => ?_
    cases bound.shape
    case classType =>
      exact .map (Query.classifierReference_links lower (hr.grows hgrows)) fun hw =>
        Fact.option_some hw
    all_goals exact .throw _
  case intersection => exact .throw _
  case definitelyNotNull => exact .throw _
  all_goals exact .pure Fact.option_none

theorem element_links (hr : caches.Issued r.id r) :
    Links session honest caches r.element (.option .element) := by
  refine .memoize ?_
  split
  · exact .pure Fact.option_none
  · exact .bind (Links.consult r.record_consult) fun hgrows _ => elementOf_links (hr.grows hgrows) _

theorem resolve_links (r : TypeReference) :
    Links session honest caches r.resolve (.option (.known .resolvedType)) := by
  refine .bind (Links.consult r.record_consult) fun {type _} _ _ => ?_
  split
  · exact .pure Fact.option_none
  · exact .pure Fact.option_none
  · refine .bind (Links.consult (.glance (.classifier r.type))) fun _ _ => ?_
    split
    · exact .pure Fact.option_none
    · exact .map (Query.resolvedType_links _) fun hw => Fact.option_some hw

end TypeReference

namespace ResolvedType

theorem declaration_links (t : ResolvedType) :
    Links session honest caches t.declaration .declaration := by
  refine .memoize (.bind (Links.consult (.glance (.classifier t.key))) fun _ _ => ?_)
  split
  · exact Query.declaration_links _
  · exact .throw _

theorem arguments_links (t : ResolvedType) :
    Links session honest caches t.arguments (.each (.argument (.known (.node .typeReference)))) := by
  refine .memoize (.bind (Links.consult t.argumentShape_consult) fun _ _ => ?_)
  split
  · exact Query.typeArguments_links _ _
  · exact Query.typeArguments_links _ _
  · exact .pure (List.forall_mem_nil _)

theorem annotations_links (t : ResolvedType) :
    Links session honest caches t.annotations (.each (.known (.node .annotationUse))) :=
  .memoize (Query.wrapAnnotations_links (by rintro _ _ ⟨⟩) _)

end ResolvedType

/-! ## Arguments of annotations -/

namespace AnnotationNode

variable {a : AnnotationNode}

theorem writtenArguments_links (ha : a.id.Issued caches) (position : Nat)
    (arguments : List ArgumentRecord) :
    Links session honest caches (a.writtenArguments position arguments)
      (.each (.known (.node .valueArgument))) := by
  induction arguments generalizing caches position with
  | nil => exact .pure (List.forall_mem_nil _)
  | cons argument arguments ih =>
    refine .bind (Query.valueArgument_links ha _ _ _ _ _) fun hgrows hfirst => ?_
    refine .bind (ih (ha.grows hgrows) (position + 1)) fun hgrows hrest => ?_
    exact .pure (List.forall_mem_cons.mpr ⟨hfirst.grows hgrows, hrest⟩)

theorem defaultsFor_links (ha : a.id.Issued caches) (covered : List String)
    (parameters : List (SymbolKey × SymbolRecord)) :
    Links session honest caches (a.defaultsFor covered parameters)
      (.each (.known (.node .valueArgument))) := by
  induction parameters generalizing caches with
  | nil => exact .pure (List.forall_mem_nil _)
  | cons parameter parameters ih =>
    unfold defaultsFor
    split
    · exact ih ha
    · split
      · exact ih ha
      · refine .bind (Links.consult (defaultValue_consult _)) fun hgrows _ => ?_
        have ha := ha.grows hgrows
        split
        · exact ih ha
        · refine .bind (Query.valueArgument_links ha _ _ _ _ _) fun hgrows hfirst => ?_
          refine .bind (ih (ha.grows hgrows)) fun hgrows hrest => ?_
          exact .pure (List.forall_mem_cons.mpr ⟨hfirst.grows hgrows, hrest⟩)

theorem arguments_links (ha : caches.Issued a.id a) :
    Links session honest caches a.arguments (.each (.known (.node .valueArgument))) := by
  have ha : a.id.Issued caches := ⟨a, ha⟩
  refine .memoize (.bind (writtenArguments_links ha 0 _) fun hgrows hwritten => ?_)
  refine .bind (Links.consult a.soleConstructor_consult) fun hgrows' _ => ?_
  have hwritten := Fact.grows _ hwritten hgrows'
  have hgrows := hgrows.trans hgrows'
  split
  · exact .pure hwritten
  · refine .bind (Links.consult (a.parametersOf_consult _)) fun hlater _ => ?_
    have ha := ha.grows (hgrows.trans hlater)
    refine .bind (defaultsFor_links ha _ _) fun hgrows hdefaults => ?_
    exact .pure (List.forall_mem_append.mpr ⟨Fact.grows _ hwritten (hlater.trans hgrows), hdefaults⟩)

theorem annotationType_links (a : AnnotationNode) :
    Links session honest caches a.annotationType (.option (.known (.node .typeReference))) := by
  refine .memoize ?_
  split
  · exact .pure Fact.option_none
  · rename_i className _
    refine .bind (Links.consult (.glance (.classByName className))) fun {key _} _ _ => ?_
    cases key with
    | none => exact .pure Fact.option_none
    | some key =>
      refine .bind (Links.consult (.inquire (.classType key))) fun _ _ => ?_
      exact .map (Query.primaryReference_links _ _) fun hw => Fact.option_some hw

end AnnotationNode

/-! ## All fields -/

theorem LazyField.read_links (f : LazyField kind field) {w : kind.Wrapper}
    (hw : caches.Issued (kind.idOf w) w) :
    Links session honest caches (f.read w) field.fact := by
  cases f with
  | fileAnnotations =>
    refine .memoize (Query.wrapAnnotations_links ?_ _)
    rintro _ _ ⟨⟩
    exact hw.node
  | classParent => exact (Declaration.classLike w).parent_links
  | classQualifiedName => exact fun s => (Declaration.classLike w).qualifiedNameWithin_links _ s
  | classAnnotations => exact Declaration.annotations_links (d := .classLike w) hw
  | classModifiers =>
    exact Links.memoize (Links.consult (.bind (ClassNode.category_consult w) fun _ => .pure _))
  | classTypeParameters => exact .memoize (.mapM_each Query.typeParameter_links _)
  | classSuperTypes => exact .memoize (Query.entries_links _ _ _)
  | functionParent => exact (Declaration.function w).parent_links
  | functionQualifiedName => exact fun s => (Declaration.function w).qualifiedNameWithin_links _ s
  | functionAnnotations => exact Declaration.annotations_links (d := .function w) hw
  | functionModifiers => exact Links.memoize (.pure trivial)
  | functionDocString => exact FunctionNode.docString_links w
  | functionReceiverType => exact .memoize (Query.reference?_links _ _)
  | functionReturnType => exact FunctionNode.returnType_links w
  | functionParameters => exact FunctionNode.parameters_links hw
  | functionTypeParameters => exact .memoize (.mapM_each Query.typeParameter_links _)
  | propertyParent => exact (Declaration.property w).parent_links
  | propertyQualifiedName => exact fun s => (Declaration.property w).qualifiedNameWithin_links _ s
  | propertyAnnotations => exact Declaration.annotations_links (d := .property w) hw
  | propertyModifiers => exact Links.memoize (.pure trivial)
  | propertyType => exact .memoize (Query.primaryReference_links _ _)
  | propertyReceiverType => exact .memoize (Query.reference?_links _ _)
  | propertyGetter => exact PropertyNode.getter_links hw
  | propertySetter => exact PropertyNode.setter_links hw
  | propertyTypeParameters => exact .memoize (.mapM_each Query.typeParameter_links _)
  | typeParameterParent => exact (Declaration.typeParameter w).parent_links
  | typeParameterQualifiedName =>
    exact fun s => (Declaration.typeParameter w).qualifiedNameWithin_links _ s
  | typeParameterAnnotations => exact Declaration.annotations_links (d := .typeParameter w) hw
  | typeParameterModifiers => exact Links.memoize (.pure trivial)
  | typeParameterBounds => exact .memoize (Query.entries_links _ _ _)
  | getterAnnotations => exact Accessor.annotations_links _ hw.node _ _
  | getterModifiers => exact Accessor.modifiers_links _ _
  | getterReturnType => exact .memoize (Query.primaryReference_links _ _)
  | setterAnnotations => exact Accessor.annotations_links _ hw.node _ _
  | setterModifiers => exact Accessor.modifiers_links _ _
  | setterParameter => exact SetterNode.parameter_links hw
  | valueParameterAnnotations => exact ValueParameterNode.annotations_links hw
  | valueParameterType => exact .memoize (Query.primaryReference_links _ _)
  | referenceAnnotations => exact TypeReference.annotations_links hw
  | referenceModifiers => exact TypeReference.modifiers_links w
  | referenceElement => exact TypeReference.element_links hw
  | classifierArguments => exact .memoize (Query.typeArguments_links _ _)
  | callableReceiverType => exact .memoize (Query.reference?_links _ _)
  | callableParameters =>
    exact .memoize (.mapM_each (fun type => Query.primaryReference_links type _) _)
  | callableReturnType => exact .memoize (Query.primaryReference_links _ _)
  | annotationArguments => exact AnnotationNode.arguments_links hw
  | annotationType => exact AnnotationNode.annotationType_links w
  | typeDeclaration => exact ResolvedType.declaration_links w
  | typeArguments => exact ResolvedType.arguments_links w
  | typeAnnotations => exact ResolvedType.annotations_links w

end SymbolGraph
