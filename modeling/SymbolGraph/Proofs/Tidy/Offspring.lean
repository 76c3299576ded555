import SymbolGraph.Proofs.Tidy.Field

/-!
# Children in tidy sessions

The children of a node, told by their keys. Which keys they have is almost wholly settled by the
wrapper of the node and the table; only the type that a function returns, and what an accessor
and an annotation take from elsewhere, is not.
-/

namespace SymbolGraph

variable {world : World} {table : SymbolTable} {caches later : Caches} {kind : NodeKind}
  {field : Field}

/-! ## Keys of children -/

/-- The node that a declaration is wrapped as, if the symbol is a declaration. -/
def SymbolTable.declared (table : SymbolTable) (key : SymbolKey) : Option NodeKey :=
  table.symbols[key.index]?.bind fun symbol =>
    match symbol.details with
    | .classLike _ => some ⟨.classLike, key⟩
    | .function _ => some ⟨.function, key⟩
    | .property _ => some ⟨.property, key⟩
    | .typeParameter _ => some ⟨.typeParameter, key⟩
    | .getter _ | .setter _ | .valueParameter _ => none

namespace NodeKey

def annotations (bearer : NodeId) (keys : List AnnotationKey) : List NodeKey :=
  (keys.map (·.on bearer)).map (mk .annotationUse)

def reference (key : TypeReferenceKey) : NodeKey := ⟨.typeReference, key⟩

def reference? (owner : NodeId) (type : Option TypeKey) : List NodeKey :=
  (type.map (·.under owner)).toList.map reference

def typeParameters (keys : List SymbolKey) : List NodeKey := keys.map (mk .typeParameter)

def valueParameter (parent : NodeId) (key : SymbolKey) : NodeKey :=
  ⟨.valueParameter, { symbol := key, parent }⟩

end NodeKey

/-- The keys of the children of a wrapper, in order. -/
inductive Offspring (table : SymbolTable) :
    (kind : NodeKind) → kind.Wrapper → List NodeKey → Prop
  | file (w : FileNode) : Offspring table .file w
    (NodeKey.annotations w.id.node w.file.annotations ++ w.file.declarations.filterMap table.declared)
  | classLike (w : ClassNode) : Offspring table .classLike w
    (NodeKey.annotations w.id.node ((Declaration.classLike w).annotationKeys table) ++
      NodeKey.typeParameters w.details.typeParameters ++
      (TypeKey.entries w.id.node 0 w.details.supertypes).map .reference ++
      w.declarationKeys.filterMap table.declared)
  | function (w : FunctionNode) (returnType : TypeKey) : Offspring table .function w
    (NodeKey.annotations w.id.node ((Declaration.function w).annotationKeys table) ++
      NodeKey.typeParameters w.details.typeParameters ++
      NodeKey.reference? w.id.node w.details.receiverType ++
      w.details.valueParameters.map (.valueParameter w.id.node) ++
      [.reference (returnType.under w.id.node)] ++
      w.declarationKeys.filterMap table.declared)
  | property (w : PropertyNode) : Offspring table .property w
    (NodeKey.annotations w.id.node ((Declaration.property w).annotationKeys table) ++
      NodeKey.typeParameters w.details.typeParameters ++
      NodeKey.reference? w.id.node w.details.receiverType ++
      [.reference (w.details.type.under w.id.node)] ++
      w.details.getter.toList.map (fun key => ⟨.getter, { receiver := w.id, symbol := key }⟩) ++
      w.details.setter.toList.map (fun key => ⟨.setter, { receiver := w.id, symbol := key }⟩))
  | getter (w : GetterNode) (annotations : List AnnotationKey) : Offspring table .getter w
    (NodeKey.annotations w.id.node annotations ++ [.reference (w.returnTypeKey.under w.id.node)])
  | setter (w : SetterNode) (annotations : List AnnotationKey) {key : SymbolKey} :
    w.parameterKey = some key → Offspring table .setter w
      (NodeKey.annotations w.id.node annotations ++ [.valueParameter w.id.node key])
  | valueParameter (w : ValueParameterNode) (annotations : List AnnotationKey) :
    Offspring table .valueParameter w
      (NodeKey.annotations w.id.node annotations ++ [.reference (w.details.type.under w.id.node)])
  | typeParameter (w : TypeParameterNode) : Offspring table .typeParameter w
    (NodeKey.annotations w.id.node ((Declaration.typeParameter w).annotationKeys table) ++
      (TypeKey.entries w.id.node 0 w.details.bounds).map .reference)
  | typeReference (w : TypeReference) {type : TypeRecord} {element : Option NodeKey} :
    table.types[w.type.index]? = some type → w.ElementKey table element →
    Offspring table .typeReference w (NodeKey.annotations w.id.node type.annotations ++ element.toList)
  | classifierReference (w : ClassifierReference) : Offspring table .classifierReference w
    (((w.arguments.filterMap TypeArgument.type?).map (·.under w.id.node)).map .reference)
  | callableReference (w : CallableReference) : Offspring table .callableReference w
    (NodeKey.reference? w.id.node w.shape.receiver ++
      (w.shape.parameters.map (·.under w.id.node)).map .reference ++
      [.reference (w.shape.returnType.under w.id.node)])
  | dynamicReference (w : DynamicReference) : Offspring table .dynamicReference w []
  | annotationUse (w : AnnotationNode) (sources : List ArgumentSource) :
    Offspring table .annotationUse w
      (NodeKey.reference? w.id.node (table.annotationType w.record) ++
        sources.map fun source => ⟨.valueArgument, { owner := w.id, source }⟩)
  | valueArgument (w : ArgumentNode) : Offspring table .valueArgument w []

/-- The nodes are the children of a wrapper. -/
def Fact.offspring (table : SymbolTable) (kind : NodeKind) (w : kind.Wrapper) :
    Fact (List NodeId) :=
  .forSome fun keys : List NodeKey => .and (.plain fun _ => Offspring table kind w keys)
    (View.keyed.list.of keys)

/-! ## Nodes of wrappers -/

namespace View

theorem list_exists {α β : Type} {v : View α β} {as : List α} {bs : List β}
    (h : v.list.Shows caches as bs) {a : α} (ha : a ∈ as) : ∃ b ∈ bs, v.Shows caches a b := by
  induction h with
  | nil => cases ha
  | @cons _ b _ _ hab _ ih =>
    rcases List.mem_cons.mp ha with rfl | ha
    · exact ⟨b, List.mem_cons_self, hab⟩
    · obtain ⟨b', hb', hab'⟩ := ih ha
      exact ⟨b', List.mem_cons_of_mem _ hb', hab'⟩

theorem found_node {w : kind.Wrapper} {key : kind.Key}
    (h : (found (.node kind)).Shows caches w key) :
    keyed.Shows caches ((Kind.node kind).idOf w).node ⟨kind, key⟩ :=
  ⟨w, h, rfl⟩

theorem found_nodes {ws : List kind.Wrapper} {keys : List kind.Key}
    (h : (found (.node kind)).list.Shows caches ws keys) :
    keyed.list.Shows caches (ws.map fun w => ((Kind.node kind).idOf w).node)
      (keys.map (NodeKey.mk kind)) :=
  list_map h found_node

theorem found_option_nodes {w : Option kind.Wrapper} {key : Option kind.Key}
    (h : (found (.node kind)).option.Shows caches w key) :
    keyed.list.Shows caches (w.toList.map fun w => ((Kind.node kind).idOf w).node)
      (key.toList.map (NodeKey.mk kind)) :=
  found_nodes (option_toList h)

theorem keyedElement_nodes {e : Option ReferenceElement} {k : Option NodeKey}
    (h : keyedElement.option.Shows caches e k) :
    keyed.list.Shows caches (e.toList.map ReferenceElement.node) k.toList := by
  cases h with
  | none => exact .nil
  | some h =>
    obtain ⟨w, hw, he⟩ := h
    refine list_singleton ⟨w, hw, ?_⟩
    rename_i k
    obtain ⟨kind, key⟩ := k
    cases kind <;> cases he <;> rfl

end View

/-! ## Collecting children -/

/-- The nodes that were found before are still known after a field is read. -/
theorem Yields.collect {kind : Kind} (f : LazyField kind field) {w : kind.Wrapper}
    (hw : caches.Issued (kind.idOf w) w) {seen : List NodeId} {keys : List NodeKey}
    (hseen : View.keyed.list.Shows caches seen keys)
    {rest : field.Value → Query ReturnTypes (List NodeId)} {F : Fact (List NodeId)}
    (hrest : ∀ {a later}, later.Issued (kind.idOf w) w → View.keyed.list.Shows later seen keys →
      (f.fact world.table w).Holds later a → Yields world later (rest a) F) :
    Yields world caches (f.read w >>= rest) F :=
  .bind (f.read_yields hw) fun hgrows _ hfact =>
    hrest (hw.grows hgrows) (View.grows _ hseen hgrows) hfact

theorem Declaration.FoundUnder.declared {d : Declaration} {key : SymbolKey}
    (h : d.FoundUnder caches key) (hgenuine : caches.Genuine table) :
    ∃ k, table.declared key = some k ∧ k.At caches d.node := by
  cases d with
  | classLike w =>
    cases hgenuine.made (.node .classLike) h with | classLike id hsymbol hdetails =>
    exact ⟨⟨.classLike, key⟩, by simp [SymbolTable.declared, hsymbol, hdetails], _, h, rfl⟩
  | function w =>
    cases hgenuine.made (.node .function) h with | function id hsymbol hdetails =>
    exact ⟨⟨.function, key⟩, by simp [SymbolTable.declared, hsymbol, hdetails], _, h, rfl⟩
  | property w =>
    cases hgenuine.made (.node .property) h with | property id hsymbol hdetails =>
    exact ⟨⟨.property, key⟩, by simp [SymbolTable.declared, hsymbol, hdetails], _, h, rfl⟩
  | typeParameter w =>
    cases hgenuine.made (.node .typeParameter) h with | typeParameter id hsymbol hdetails =>
    exact ⟨⟨.typeParameter, key⟩, by simp [SymbolTable.declared, hsymbol, hdetails], _, h, rfl⟩

theorem Query.declarationNodes_yields (keys : List SymbolKey) :
    Yields world caches (declarationNodes keys)
      (View.keyed.list.of (keys.filterMap world.table.declared)) := by
  unfold declarationNodes
  induction keys generalizing caches with
  | nil =>
    rw [List.mapM_nil]
    exact .pure .nil
  | cons key keys ih =>
    simp only [List.mapM_cons, bind_assoc, pure_bind]
    refine .bind (declaration_yields key) fun _ hgenuine hd => ?_
    obtain ⟨k, hk, hat⟩ := hd.declared hgenuine
    rw [List.filterMap_cons_some hk]
    exact .bind ih fun hgrows _ hrest => .pure (.cons (hat.grows hgrows) hrest)

/-- Declarations come last. -/
theorem Yields.collect_declarations {w : kind.Wrapper} {seen : List NodeId} {keys : List NodeKey}
    (hseen : View.keyed.list.Shows caches seen keys) {declarations : List SymbolKey}
    (h : Offspring world.table kind w (keys ++ declarations.filterMap world.table.declared)) :
    Yields world caches (do return seen ++ (← Query.declarationNodes declarations))
      (.offspring world.table kind w) :=
  (Query.declarationNodes_yields declarations).bind fun hgrows _ hdeclarations =>
    .pure ⟨_, h, View.list_append (View.grows _ hseen hgrows) hdeclarations⟩

/-! ## Children by kind -/

theorem FileNode.children_yields {w : FileNode} (hw : caches.Issued w.id w) :
    Yields world caches w.children (.offspring world.table .file w) := by
  refine .collect .fileAnnotations hw .nil fun hw hseen h => ?_
  exact .collect_declarations (View.list_append hseen (View.found_nodes h)) (.file w)

theorem ClassNode.children_yields {w : ClassNode} (hw : caches.Issued w.id w) :
    Yields world caches w.children (.offspring world.table .classLike w) := by
  refine .collect .classAnnotations hw .nil fun hw hseen h => ?_
  have hseen := View.list_append hseen (View.found_nodes h.2)
  refine .collect .classTypeParameters hw hseen fun hw hseen h => ?_
  have hseen := View.list_append hseen (View.found_nodes h)
  refine .collect .classSuperTypes hw hseen fun hw hseen h => ?_
  exact .collect_declarations (View.list_append hseen (View.found_nodes h)) (.classLike w)

theorem FunctionNode.children_yields {w : FunctionNode} (hw : caches.Issued w.id w) :
    Yields world caches w.children (.offspring world.table .function w) := by
  refine .collect .functionAnnotations hw .nil fun hw hseen h => ?_
  have hseen := View.list_append hseen (View.found_nodes h.2)
  refine .collect .functionTypeParameters hw hseen fun hw hseen h => ?_
  have hseen := View.list_append hseen (View.found_nodes h)
  refine .collect .functionReceiverType hw hseen fun hw hseen h => ?_
  have hseen := View.list_append hseen (View.found_option_nodes h)
  refine .collect .functionParameters hw hseen fun hw hseen h => ?_
  have hparameters := View.found_nodes h
  rw [List.map_map] at hparameters
  have hseen := View.list_append hseen hparameters
  refine .collect .functionReturnType hw hseen fun hw hseen h => ?_
  obtain ⟨type, _, h⟩ := h
  have hseen := View.list_append hseen (View.list_singleton (View.found_node h))
  exact .collect_declarations hseen (.function w type)

theorem PropertyNode.children_yields {w : PropertyNode} (hw : caches.Issued w.id w) :
    Yields world caches w.children (.offspring world.table .property w) := by
  refine .collect .propertyAnnotations hw .nil fun hw hseen h => ?_
  have hseen := View.list_append hseen (View.found_nodes h.2)
  refine .collect .propertyTypeParameters hw hseen fun hw hseen h => ?_
  have hseen := View.list_append hseen (View.found_nodes h)
  refine .collect .propertyReceiverType hw hseen fun hw hseen h => ?_
  have hseen := View.list_append hseen (View.found_option_nodes h)
  refine .collect .propertyType hw hseen fun hw hseen h => ?_
  have hseen := View.list_append hseen (View.list_singleton (View.found_node h))
  refine .collect .propertyGetter hw hseen fun hw hseen h => ?_
  have hgetter := View.found_option_nodes h
  rw [Option.toList_map, List.map_map] at hgetter
  have hseen := View.list_append hseen hgetter
  refine .collect .propertySetter hw hseen fun hw hseen h => ?_
  have hsetter := View.found_option_nodes h
  rw [Option.toList_map, List.map_map] at hsetter
  exact .pure ⟨_, .property w, View.list_append hseen hsetter⟩

/-- The annotations of a getter are its own and those of the property that it was created for. -/
theorem GetterNode.children_keys {w : GetterNode} (hw : caches.Issued w.id w) :
    Yields world caches w.children
      (.forSome fun property : PropertyNode => .and (.given w.receiver property)
        (View.keyed.list.of (NodeKey.annotations w.id.node
          (w.toAccessor.annotationKeys world.table property .setterParameter .getter) ++
            [.reference (w.returnTypeKey.under w.id.node)]))) := by
  refine .bind (LazyField.getterAnnotations.read_yields hw) fun hgrows _ h => ?_
  obtain ⟨property, hproperty, -, h⟩ := h
  have hseen := View.found_nodes h
  refine .bind (LazyField.getterReturnType.read_yields (hw.grows hgrows)) fun hgrows _ h => ?_
  have hseen := View.list_append (View.grows _ hseen hgrows) (View.list_singleton (View.found_node h))
  exact .pure ⟨property, hproperty.grows hgrows, hseen⟩

theorem GetterNode.children_yields {w : GetterNode} (hw : caches.Issued w.id w) :
    Yields world caches w.children (.offspring world.table .getter w) :=
  (children_keys hw).mono fun _ ⟨_, _, h⟩ => ⟨_, .getter w _, h⟩

/-- The annotations of a setter are its own and those of the property that it was created for. -/
theorem SetterNode.children_keys {w : SetterNode} (hw : caches.Issued w.id w) :
    Yields world caches w.children
      (.forSome fun property : PropertyNode => .forSome fun key : SymbolKey =>
        .and (.given w.receiver property) <| .and (.plain fun _ => w.parameterKey = some key) <|
          View.keyed.list.of (NodeKey.annotations w.id.node
            (w.toAccessor.annotationKeys world.table property .getter .setter) ++
              [.valueParameter w.id.node key])) := by
  refine .bind (LazyField.setterAnnotations.read_yields hw) fun hgrows _ h => ?_
  obtain ⟨property, hproperty, -, h⟩ := h
  have hseen := View.found_nodes h
  refine .bind (LazyField.setterParameter.read_yields (hw.grows hgrows)) fun hgrows _ h => ?_
  obtain ⟨key, hkey, h⟩ := h
  have hseen := View.list_append (View.grows _ hseen hgrows) (View.list_singleton (View.found_node h))
  exact .pure ⟨property, key, hproperty.grows hgrows, hkey, hseen⟩

theorem SetterNode.children_yields {w : SetterNode} (hw : caches.Issued w.id w) :
    Yields world caches w.children (.offspring world.table .setter w) :=
  (children_keys hw).mono fun _ ⟨_, _, _, hkey, h⟩ => ⟨_, .setter w _ hkey, h⟩

/-- A value parameter has its own annotations, and that of a setter also those of the property. -/
theorem ValueParameterNode.children_keys {w : ValueParameterNode} (hw : caches.Issued w.id w) :
    Yields world caches w.children
      (.forSome fun keys : List AnnotationKey => .and (.bears world.table w keys)
        (View.keyed.list.of (NodeKey.annotations w.id.node keys ++
          [.reference (w.details.type.under w.id.node)]))) := by
  refine .bind (LazyField.valueParameterAnnotations.read_yields hw) fun hgrows _ h => ?_
  obtain ⟨keys, hbears, h⟩ := h
  have hseen := View.found_nodes h
  refine .bind (LazyField.valueParameterType.read_yields (hw.grows hgrows)) fun hgrows _ h => ?_
  have hseen := View.list_append (View.grows _ hseen hgrows) (View.list_singleton (View.found_node h))
  exact .pure ⟨keys, hbears.grows hgrows, hseen⟩

theorem ValueParameterNode.children_yields {w : ValueParameterNode} (hw : caches.Issued w.id w) :
    Yields world caches w.children (.offspring world.table .valueParameter w) :=
  (children_keys hw).mono fun _ ⟨_, _, h⟩ => ⟨_, .valueParameter w _, h⟩

theorem TypeParameterNode.children_yields {w : TypeParameterNode} (hw : caches.Issued w.id w) :
    Yields world caches w.children (.offspring world.table .typeParameter w) := by
  refine .collect .typeParameterAnnotations hw .nil fun hw hseen h => ?_
  have hseen := View.list_append hseen (View.found_nodes h.2)
  refine .collect .typeParameterBounds hw hseen fun hw hseen h => ?_
  exact .pure ⟨_, .typeParameter w, View.list_append hseen (View.found_nodes h)⟩

theorem TypeReference.children_yields {w : TypeReference} (hw : caches.Issued w.id w) :
    Yields world caches w.children (.offspring world.table .typeReference w) := by
  refine .collect .referenceAnnotations hw .nil fun hw hseen h => ?_
  obtain ⟨type, htype, h⟩ := h
  have hseen := View.list_append hseen (View.found_nodes h)
  refine .collect .referenceElement hw hseen fun hw hseen h => ?_
  obtain ⟨element, helement, h⟩ := h
  have hseen := View.list_append hseen (View.keyedElement_nodes h)
  exact .pure ⟨_, .typeReference w htype helement, hseen⟩

theorem ClassifierReference.children_yields {w : ClassifierReference}
    (hw : caches.Issued w.id w) :
    Yields world caches w.children (.offspring world.table .classifierReference w) := by
  refine .collect .classifierArguments hw .nil fun hw hseen h => ?_
  have htypes := View.list_types h
  rw [TypeArgument.filterMap_type?_map] at htypes
  have hseen := View.list_append hseen (View.found_nodes htypes)
  exact .pure ⟨_, .classifierReference w, hseen⟩

theorem CallableReference.children_yields {w : CallableReference} (hw : caches.Issued w.id w) :
    Yields world caches w.children (.offspring world.table .callableReference w) := by
  refine .collect .callableReceiverType hw .nil fun hw hseen h => ?_
  have hseen := View.list_append hseen (View.found_option_nodes h)
  refine .collect .callableParameters hw hseen fun hw hseen h => ?_
  have hseen := View.list_append hseen (View.found_nodes h)
  refine .collect .callableReturnType hw hseen fun hw hseen h => ?_
  have hseen := View.list_append hseen (View.list_singleton (View.found_node h))
  exact .pure ⟨_, .callableReference w, hseen⟩

/-- The arguments of an annotation are those written and some of the defaults. -/
theorem AnnotationNode.children_keys {w : AnnotationNode} (hw : caches.Issued w.id w) :
    Yields world caches w.children
      (.forSome fun keys : List SymbolKey =>
        .and (.plain fun _ => keys.Sublist (world.table.defaultParameters w.record))
          (View.keyed.list.of (NodeKey.reference? w.id.node (world.table.annotationType w.record) ++
            (w.writtenSources ++ keys.map ArgumentSource.default).map fun source =>
              ⟨.valueArgument, { owner := w.id, source }⟩))) := by
  refine .bind (LazyField.annotationType.read_yields hw) fun hgrows _ h => ?_
  have hseen := View.found_option_nodes h
  refine .bind (LazyField.annotationArguments.read_yields (hw.grows hgrows)) fun hgrows _ h => ?_
  have hseen := View.list_append (View.grows _ hseen hgrows) (View.found_nodes h.2)
  rw [List.map_map] at hseen
  exact .pure ⟨_, world.table.defaulted_sublist w.record, hseen⟩

theorem AnnotationNode.children_yields {w : AnnotationNode} (hw : caches.Issued w.id w) :
    Yields world caches w.children (.offspring world.table .annotationUse w) :=
  (children_keys hw).mono fun _ ⟨_, _, h⟩ => ⟨_, .annotationUse w _, h⟩

theorem NodeKind.children_yields (kind : NodeKind) {w : kind.Wrapper}
    (hw : caches.Issued ((Kind.node kind).idOf w) w) :
    Yields world caches (kind.children w) (.offspring world.table kind w) := by
  cases kind with
  | file => exact FileNode.children_yields hw
  | classLike => exact ClassNode.children_yields hw
  | function => exact FunctionNode.children_yields hw
  | property => exact PropertyNode.children_yields hw
  | getter => exact GetterNode.children_yields hw
  | setter => exact SetterNode.children_yields hw
  | valueParameter => exact ValueParameterNode.children_yields hw
  | typeParameter => exact TypeParameterNode.children_yields hw
  | typeReference => exact TypeReference.children_yields hw
  | classifierReference => exact ClassifierReference.children_yields hw
  | callableReference => exact CallableReference.children_yields hw
  | dynamicReference => exact .pure ⟨[], .dynamicReference w, .nil⟩
  | annotationUse => exact AnnotationNode.children_yields hw
  | valueArgument => exact .pure ⟨[], .valueArgument w, .nil⟩

/-- A node has children only if it was issued for a wrapper, and they are those of the wrapper. -/
theorem NodeId.children_yields (node : NodeId) :
    Yields world caches node.children
      (.forSome fun w : node.kind.Wrapper =>
        .and (.given node.handle w) (.offspring world.table node.kind w)) := by
  refine .bind (.resolve node.handle) fun {w _} _ hgenuine hw => ?_
  have hid : (Kind.node node.kind).idOf w = node.handle := hgenuine.idOf_eq hw
  refine (node.kind.children_yields (w := w) (hid ▸ hw)).mono fun hgrows h => ?_
  exact ⟨w, hw.grows hgrows, h⟩

end SymbolGraph
