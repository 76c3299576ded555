import SymbolGraph.Proofs.Linked.Field
import SymbolGraph.Proofs.Meaning.Operation

/-!
# Answers of linked sessions

Whatever a session is asked it stays linked, and every wrapper in the answer is one of its own.
-/

namespace SymbolGraph

variable {σ α : Type} {session : Session σ} {honest : Prop} {caches : Caches} {kind : Kind}
  {field : Field}

/-! ## Wrappers in values -/

/-- A wrapper together with its kind. -/
def Kind.pack (kind : Kind) (w : kind.Wrapper) : Sigma Kind.Wrapper := ⟨kind, w⟩

def Declaration.wrapper : Declaration → Sigma Kind.Wrapper
  | classLike w => ⟨.node .classLike, w⟩
  | function w => ⟨.node .function, w⟩
  | property w => ⟨.node .property, w⟩
  | typeParameter w => ⟨.node .typeParameter, w⟩

def ReferenceElement.wrapper : ReferenceElement → Sigma Kind.Wrapper
  | classifier w => ⟨.node .classifierReference, w⟩
  | callable w => ⟨.node .callableReference, w⟩
  | dynamic w => ⟨.node .dynamicReference, w⟩

/-- The wrappers in the value of a field. -/
def Field.wrappers : (field : Field) → field.Value → List (Sigma Kind.Wrapper)
  | annotations, v => List.map (Kind.pack (.node .annotationUse)) v
  | receiverType, v | annotationType, v =>
    (Option.toList v).map (Kind.pack (.node .typeReference))
  | returnType, v | type, v => [Kind.pack (.node .typeReference) v]
  | valueParameters, v => List.map (Kind.pack (.node .valueParameter)) v
  | typeParameters, v => List.map (Kind.pack (.node .typeParameter)) v
  | superTypes, v | bounds, v | functionParameters, v =>
    List.map (Kind.pack (.node .typeReference)) v
  | getter, v => (Option.toList v).map (Kind.pack (.node .getter))
  | setter, v => (Option.toList v).map (Kind.pack (.node .setter))
  | parameter, v => [Kind.pack (.node .valueParameter) v]
  | element, v => (Option.toList v).map ReferenceElement.wrapper
  | typeArguments, v =>
    (List.filterMap TypeArgument.type? v).map (Kind.pack (.node .typeReference))
  | arguments, v => List.map (Kind.pack (.node .valueArgument)) v
  | declaration, v => [Declaration.wrapper v]
  -- These hold handles or no nodes at all.
  | parent, _ | qualifiedName, _ | modifiers, _ | docString, _ => []

/-- What is known of a list is known of its items. -/
theorem Fact.issued_of_each (kind : Kind) {ws : List kind.Wrapper}
    (h : (Fact.each (.known kind)).Holds caches ws) {x : Sigma Kind.Wrapper}
    (hx : x ∈ ws.map kind.pack) : caches.Issued (x.1.idOf x.2) x.2 := by
  obtain ⟨w, hw, rfl⟩ := List.mem_map.mp hx
  exact h w hw

theorem Fact.issued_of_option (kind : Kind) {w : Option kind.Wrapper}
    (h : (Fact.option (.known kind)).Holds caches w) {x : Sigma Kind.Wrapper}
    (hx : x ∈ w.toList.map kind.pack) : caches.Issued (x.1.idOf x.2) x.2 :=
  Fact.issued_of_each kind (fun a ha => h a (Option.mem_toList.mp ha)) hx

theorem Declaration.Issued.wrapper {d : Declaration} (h : d.Issued caches) :
    caches.Issued (d.wrapper.1.idOf d.wrapper.2) d.wrapper.2 := by
  cases d <;> exact h

theorem ReferenceElement.Issued.wrapper {e : ReferenceElement} (h : e.Issued caches) :
    caches.Issued (e.wrapper.1.idOf e.wrapper.2) e.wrapper.2 := by
  cases e <;> exact h

theorem Field.issued_of_mem {v : field.Value} (h : field.fact.Holds caches v)
    {x : Sigma Kind.Wrapper} (hx : x ∈ field.wrappers v) : caches.Issued (x.1.idOf x.2) x.2 := by
  cases field
  case annotations => exact Fact.issued_of_each (.node .annotationUse) h hx
  case valueParameters => exact Fact.issued_of_each (.node .valueParameter) h hx
  case typeParameters => exact Fact.issued_of_each (.node .typeParameter) h hx
  case arguments => exact Fact.issued_of_each (.node .valueArgument) h hx
  case superTypes | bounds | functionParameters =>
    exact Fact.issued_of_each (.node .typeReference) h hx
  case receiverType | annotationType => exact Fact.issued_of_option (.node .typeReference) h hx
  case getter => exact Fact.issued_of_option (.node .getter) h hx
  case setter => exact Fact.issued_of_option (.node .setter) h hx
  case returnType | type | parameter =>
    cases List.mem_singleton.mp hx
    exact h
  case element =>
    obtain ⟨e, he, rfl⟩ := List.mem_map.mp hx
    exact ReferenceElement.Issued.wrapper (h e (Option.mem_toList.mp he))
  case typeArguments =>
    refine Fact.issued_of_each (.node .typeReference) (fun r hr => ?_) hx
    obtain ⟨argument, hargument, hr⟩ := List.mem_filterMap.mp hr
    exact h argument hargument r hr
  case declaration =>
    cases List.mem_singleton.mp hx
    exact Declaration.Issued.wrapper h
  case parent | qualifiedName | modifiers | docString => cases hx

/-! ## Children -/

theorem Query.declarationNodes_links (keys : List SymbolKey) :
    Links session honest caches (declarationNodes keys) (.each .node) :=
  .mapM_each (fun key => .map (declaration_links key) fun hd => hd.node) keys

/-- The wrapper is still there after one of its fields is read. -/
theorem Links.collect {field : Field} (f : LazyField kind field) {w : kind.Wrapper}
    (hw : caches.Issued (kind.idOf w) w) {rest : field.Value → Query σ α} {F : Fact α}
    (hrest : ∀ {a later}, later.Issued (kind.idOf w) w → Links session honest later (rest a) F) :
    Links session honest caches (f.read w >>= rest) F :=
  .bind (f.read_links hw) fun hgrows _ => hrest (hw.grows hgrows)

theorem Links.collect_declarations {keys : List SymbolKey} {f : List NodeId → List NodeId} :
    Links session honest caches (do return f (← Query.declarationNodes keys)) .any :=
  .map (Query.declarationNodes_links keys) fun _ => trivial

theorem NodeKind.children_links (kind : NodeKind) {w : kind.Wrapper}
    (hw : caches.Issued ((Kind.node kind).idOf w) w) :
    Links session honest caches (kind.children w) .any := by
  cases kind
  case file => exact .collect .fileAnnotations hw fun _ => .collect_declarations
  case classLike =>
    refine .collect .classAnnotations hw fun hw => .collect .classTypeParameters hw fun hw => ?_
    exact .collect .classSuperTypes hw fun _ => .collect_declarations
  case function =>
    refine .collect .functionAnnotations hw fun hw => .collect .functionTypeParameters hw fun hw => ?_
    refine .collect .functionReceiverType hw fun hw => .collect .functionParameters hw fun hw => ?_
    exact .collect .functionReturnType hw fun _ => .collect_declarations
  case property =>
    refine .collect .propertyAnnotations hw fun hw => .collect .propertyTypeParameters hw fun hw => ?_
    refine .collect .propertyReceiverType hw fun hw => .collect .propertyType hw fun hw => ?_
    refine .collect .propertyGetter hw fun hw => .collect .propertySetter hw fun _ => ?_
    exact .pure trivial
  case getter =>
    refine .collect .getterAnnotations hw fun hw => .collect .getterReturnType hw fun _ => ?_
    exact .pure trivial
  case setter =>
    refine .collect .setterAnnotations hw fun hw => .collect .setterParameter hw fun _ => ?_
    exact .pure trivial
  case valueParameter =>
    refine .collect .valueParameterAnnotations hw fun hw => ?_
    exact .collect .valueParameterType hw fun _ => .pure trivial
  case typeParameter =>
    refine .collect .typeParameterAnnotations hw fun hw => ?_
    exact .collect .typeParameterBounds hw fun _ => .pure trivial
  case typeReference =>
    refine .collect .referenceAnnotations hw fun hw => .collect .referenceElement hw fun _ => ?_
    exact .pure trivial
  case classifierReference => exact .collect .classifierArguments hw fun _ => .pure trivial
  case callableReference =>
    refine .collect .callableReceiverType hw fun hw => .collect .callableParameters hw fun hw => ?_
    exact .collect .callableReturnType hw fun _ => .pure trivial
  case annotationUse =>
    refine .collect .annotationType hw fun hw => .collect .annotationArguments hw fun _ => ?_
    exact .pure trivial
  case dynamicReference => exact .pure trivial
  case valueArgument => exact .pure trivial

theorem NodeId.children_links (node : NodeId) :
    Links session honest caches node.children .any :=
  .bind (Links.resolve node.handle) fun _ hw => NodeKind.children_links _ hw

/-! ## Operations -/

/-- The wrappers in what is read. -/
def Reading.wrappers : Reading kind α → α → List (Sigma Kind.Wrapper)
  | @wrapper kind, w => [kind.pack w]
  | @Reading.field _ field _, v => field.wrappers v
  | declaration _ _, d | parentDeclaration, d | overridden, d => d.toList.map Declaration.wrapper
  | classConstructor _, w | primaryConstructor, w => w.toList.map (Kind.pack (.node .function))
  | starProjectedType, w => [Kind.pack .resolvedType w]
  | getterReceiver, w | setterReceiver, w => [Kind.pack (.node .property) w]
  | resolve, w => w.toList.map (Kind.pack .resolvedType)
  | defaultArguments, ws => ws.map (Kind.pack (.node .valueArgument))
  | _, _ => []

/-- The wrappers in the answer to an operation. -/
def Operation.wrappers : Operation α → α → List (Sigma Kind.Wrapper)
  | @wrap kind _, w => [kind.pack w]
  | declaration _, d => [d.wrapper]
  | nodeDeclaration _, d => d.toList.map Declaration.wrapper
  | read _ r, a => r.wrappers a

/-- The wrappers in an answer are wrappers of the session. -/
def Fact.shows (wrappers : α → List (Sigma Kind.Wrapper)) : Fact α where
  Holds caches a := ∀ x ∈ wrappers a, caches.Issued (x.1.idOf x.2) x.2
  grows h hgrows := fun x hx => (h x hx).grows hgrows

namespace Links

theorem shows_nothing {q : Query σ α} (h : Links session honest caches q .any) :
    Links session honest caches q (.shows fun _ => []) :=
  h.mono fun _ _ => List.forall_mem_nil _

theorem shows_wrapper {q : Query σ kind.Wrapper} (h : Links session honest caches q (.known kind)) :
    Links session honest caches q (.shows fun w => [kind.pack w]) :=
  h.mono fun _ hw => List.forall_mem_singleton.mpr hw

theorem shows_option (kind : Kind) {q : Query σ (Option kind.Wrapper)}
    (h : Links session honest caches q (.option (.known kind))) :
    Links session honest caches q (.shows fun w => w.toList.map kind.pack) :=
  h.mono fun _ hw _ hx => Fact.issued_of_option kind hw hx

theorem shows_declaration {q : Query σ (Option Declaration)}
    (h : Links session honest caches q (.option .declaration)) :
    Links session honest caches q (.shows fun d => d.toList.map Declaration.wrapper) := by
  refine h.mono fun _ hd x hx => ?_
  obtain ⟨d, hmem, rfl⟩ := List.mem_map.mp hx
  exact Declaration.Issued.wrapper (hd d (Option.mem_toList.mp hmem))

end Links

/-- Only where the session does not look at the handle that it is given does it matter which. -/
theorem Wrapping.query_links (w : Wrapping kind) (h : honest → w.Issued caches) :
    Links session honest caches w.query (.known kind) := by
  cases w with
  | file key => exact Query.file_links key
  | classLike key => exact Query.classLike_links key
  | function key => exact Query.function_links key
  | property key => exact Query.property_links key
  | getter receiver key => exact Query.getter_links h key
  | setter receiver key => exact Query.setter_links h key
  | valueParameter key parent => exact Query.valueParameter_links key h
  | typeParameter key => exact Query.typeParameter_links key
  | typeReference type parent index => exact Query.typeReference_links type parent index
  | resolvedType key => exact Query.resolvedType_links key
  | annotationUse key parent => exact Query.annotationUse_links key h

theorem Query.item_links {κ : Type} {keys : List κ} {position : Nat} {make : κ → Query σ α}
    {F : Fact α} (h : ∀ key, Links session honest caches (make key) F) :
    Links session honest caches (Query.item keys position make) (.option F) := by
  unfold item
  split
  · exact .map (h _) Fact.option_some
  · exact .pure Fact.option_none

theorem NodeKind.parent_links (kind : NodeKind) (w : kind.Wrapper) :
    Links session honest caches (kind.parent w) .any := by
  cases kind
  case classLike | function | property | typeParameter =>
    exact (Declaration.parent_links _).to_any
  all_goals exact .pure trivial

theorem ClassNode.primaryConstructor_links (c : ClassNode) :
    Links session honest caches c.primaryConstructor (.option (.known (.node .function))) := by
  unfold primaryConstructor
  split
  · exact .pure Fact.option_none
  · exact .map (Query.function_links _) Fact.option_some

theorem Reading.query_links (r : Reading kind α) {w : kind.Wrapper}
    (hw : caches.Issued (kind.idOf w) w) :
    Links session honest caches (r.query w) (.shows r.wrappers) := by
  cases r with
  | wrapper => exact .shows_wrapper (.pure hw)
  | field f => exact (f.read_links hw).mono fun _ h _ hx => Field.issued_of_mem h hx
  | location => exact .shows_nothing (Links.observes (NodeKind.location_observes _ w))
  | origin => exact .shows_nothing (.pure trivial)
  | parent => exact .shows_nothing (NodeKind.parent_links _ w)
  | children => exact .shows_nothing (NodeKind.children_links _ hw)
  | declaration scope position => exact .shows_declaration (Query.item_links Query.declaration_links)
  | classCategory => exact .shows_nothing (Links.consult (ClassNode.category_consult w))
  | classConstructor position => exact .shows_option (.node .function) (Query.item_links Query.function_links)
  | primaryConstructor => exact .shows_option (.node .function) (ClassNode.primaryConstructor_links w)
  | starProjectedType =>
    refine .shows_wrapper (.bind (Links.consult (.inquire (.starProjectedType w.key))) fun _ _ => ?_)
    exact Query.resolvedType_links _
  | functionCategory => exact .shows_nothing (Links.consult (FunctionNode.category_consult w))
  | parentDeclaration => exact .shows_declaration (Declaration.parentDeclaration_links _)
  | getterReceiver => exact .shows_wrapper (Links.resolve _)
  | setterReceiver => exact .shows_wrapper (Links.resolve _)
  | render =>
    exact .shows_nothing (Links.consult (.bind (TypeReference.record_consult w) fun _ => .pure _))
  | resolve => exact .shows_option .resolvedType (TypeReference.resolve_links w)
  | overridden | defaultArguments => exact .throw _
  | isStarProjected => exact .shows_nothing (.map (ResolvedType.arguments_links w) fun _ => trivial)

/-- Every wrapper in an answer is a wrapper of the session. -/
theorem Operation.query_links (op : Operation α) (h : honest → op.Issued caches) :
    Links session honest caches op.query (.shows op.wrappers) := by
  cases op with
  | wrap w => exact .shows_wrapper (w.query_links h)
  | declaration key =>
    exact (Query.declaration_links key).mono fun _ hd =>
      List.forall_mem_singleton.mpr (Declaration.Issued.wrapper hd)
  | nodeDeclaration node => exact .shows_declaration (Query.nodeDeclaration_links node)
  | read handle r => exact .bind (Links.resolve handle) fun _ hw => r.query_links hw

end SymbolGraph
