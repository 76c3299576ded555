import SymbolGraph.Proofs.Meaning.Total

/-!
# The children of apt entities

In a closed table all children of an apt entity can be found, and they are apt as well. There is one lemma
for each kind of node.
-/

namespace SymbolGraph

namespace NodeKind

variable {world : World} {kind : NodeKind}

section

variable (hclosed : world.table.Closed)

include hclosed

theorem file_below {e : Entity (.node .file)} (h : e.node.Apt world) {w : FileNode}
    (hw : e.portrait world = .ok w) : (file.below world e w).Gives (NodeEntity.AllApt world) := by
  cases Entity.made hw with | file _ hfile =>
  refine (World.wrapAnnotations_gives h fun _ => hclosed.annotations_of_file hfile).bind
    fun annotations hannotations => ?_
  refine (World.declarations_gives (hclosed.declarations _ (Array.mem_of_getElem? hfile))).bind
    fun declarations hdeclarations => .pure ?_
  simp only [List.forall_mem_append, List.forall_mem_map]
  exact ⟨hannotations, hdeclarations⟩

theorem classLike_below {e : Entity (.node .classLike)} (h : e.node.Apt world) {w : ClassNode}
    (hw : e.portrait world = .ok w) : (classLike.below world e w).Gives (NodeEntity.AllApt world) := by
  cases e with | classLike key =>
  cases Entity.made hw with | @classLike _ symbol c _ hsymbol hdetails =>
  have htypeParameters : ∀ key ∈ c.typeParameters, world.table.sort? key = some .typeParameter :=
    fun key hkey => hclosed.sort?_of_slot_singleton hsymbol (by simp [SymbolRecord.slots, hdetails, hkey])
  have hsuperTypes : ∀ type ∈ c.supertypes, type.index < world.table.types.size :=
    fun type htype => hclosed.type_lt hsymbol (by simpa [SymbolDetails.types, hdetails] using htype)
  have hdeclarations : ∀ key ∈ c.constructors ++ c.members,
      ∃ kind ∈ members, world.table.sort? key = some kind := by
    intro key hkey
    rcases List.mem_append.mp hkey with hkey | hkey
    · exact ⟨.function, by decide,
        hclosed.sort?_of_slot_singleton hsymbol (by simp [SymbolRecord.slots, hdetails, hkey])⟩
    · exact hclosed.sort?_of_slot hsymbol (by simp [SymbolRecord.slots, hdetails, hkey])
  refine (World.selectAnnotations_gives h _ fun _ => hclosed.annotations_of_symbol hsymbol).bind
    fun annotations hannotations => ?_
  refine (World.typeParameters_gives htypeParameters).bind fun typeParameters htypeParameters => ?_
  refine (World.entries_gives h hsuperTypes 0).bind fun superTypes hsuperTypes => ?_
  refine (World.declarations_gives hdeclarations).bind fun declarations hdeclarations => .pure ?_
  simp only [List.forall_mem_append, List.forall_mem_map]
  exact ⟨⟨⟨hannotations, htypeParameters⟩, hsuperTypes⟩, hdeclarations⟩

theorem function_below {e : Entity (.node .function)} (h : e.node.Apt world) {w : FunctionNode}
    (hw : e.portrait world = .ok w) : (function.below world e w).Gives (NodeEntity.AllApt world) := by
  cases e with | function key =>
  cases Entity.made hw with | @function _ symbol f _ hsymbol hdetails =>
  have htypeParameters : ∀ key ∈ f.typeParameters, world.table.sort? key = some .typeParameter :=
    fun key hkey => hclosed.sort?_of_slot_singleton hsymbol (by simp [SymbolRecord.slots, hdetails, hkey])
  have hreceiver : ∀ type ∈ f.receiverType.toList, type.index < world.table.types.size :=
    fun type htype => hclosed.type_lt hsymbol (by simpa [SymbolDetails.types, hdetails] using htype)
  have hparameters : ∀ key ∈ f.valueParameters, world.table.sort? key = some .valueParameter :=
    fun key hkey => hclosed.sort?_of_slot_singleton hsymbol (by simp [SymbolRecord.slots, hdetails, hkey])
  have hdeclarations : ∀ key ∈ (symbol.source.map Source.localDeclarations).getD [],
      ∃ kind ∈ members, world.table.sort? key = some kind := fun key hkey =>
    hclosed.sort?_of_slot hsymbol (by
      simp only [SymbolRecord.slots, hdetails]
      exact List.mem_append_right _ (List.mem_map_of_mem hkey))
  refine (World.selectAnnotations_gives h _ fun _ => hclosed.annotations_of_symbol hsymbol).bind
    fun annotations hannotations => ?_
  refine (World.typeParameters_gives htypeParameters).bind fun typeParameters htypeParameters => ?_
  refine (World.receiverType_gives h hreceiver).bind fun receiver hreceiver => ?_
  refine (World.parameters_gives h hparameters).bind fun parameters hparameters => ?_
  refine (World.returnType_gives hclosed hsymbol hdetails h).bind fun returnType hreturnType => ?_
  refine (World.declarations_gives hdeclarations).bind fun declarations hdeclarations => .pure ?_
  simp only [List.forall_mem_append, List.forall_mem_map, List.forall_mem_singleton]
  exact ⟨⟨⟨⟨⟨hannotations, htypeParameters⟩, hreceiver⟩, hparameters⟩, hreturnType⟩, hdeclarations⟩

theorem property_below {e : Entity (.node .property)} (h : e.node.Apt world) {w : PropertyNode}
    (hw : e.portrait world = .ok w) : (property.below world e w).Gives (NodeEntity.AllApt world) := by
  cases e with | property key =>
  cases Entity.made hw with | @property _ symbol p _ hsymbol hdetails =>
  have htypeParameters : ∀ key ∈ p.typeParameters, world.table.sort? key = some .typeParameter :=
    fun key hkey => hclosed.sort?_of_slot_singleton hsymbol (by simp [SymbolRecord.slots, hdetails, hkey])
  have htypes : ∀ type ∈ p.type :: p.receiverType.toList, type.index < world.table.types.size :=
    fun type htype => hclosed.type_lt hsymbol (by simpa [SymbolDetails.types, hdetails] using htype)
  obtain ⟨htype, hreceiver⟩ := List.forall_mem_cons.mp htypes
  have hgetter : ∀ key ∈ p.getter, world.table.sort? key = some .getter := fun key hkey =>
    hclosed.sort?_of_slot_singleton hsymbol (by simpa [SymbolRecord.slots, hdetails] using hkey)
  have hsetter : ∀ key ∈ p.setter, world.table.sort? key = some .setter := fun key hkey =>
    hclosed.sort?_of_slot_singleton hsymbol (by simpa [SymbolRecord.slots, hdetails] using hkey)
  refine (World.selectAnnotations_gives h _ fun _ => hclosed.annotations_of_symbol hsymbol).bind
    fun annotations hannotations => ?_
  refine (World.typeParameters_gives htypeParameters).bind fun typeParameters htypeParameters => ?_
  refine (World.receiverType_gives h hreceiver).bind fun receiver hreceiver => ?_
  refine (World.primaryReference_gives h htype).bind fun type htype => ?_
  refine (World.getter_gives h hgetter).bind fun getter hgetter => ?_
  refine (World.setter_gives h hsetter).bind fun setter hsetter => .pure ?_
  simp only [List.forall_mem_append, List.forall_mem_map, List.forall_mem_singleton]
  exact ⟨⟨⟨⟨⟨hannotations, htypeParameters⟩, hreceiver⟩, htype⟩, hgetter⟩, hsetter⟩

theorem getter_below {e : Entity (.node .getter)} (h : e.node.Apt world) {w : GetterNode}
    (hw : e.portrait world = .ok w) : (getter.below world e w).Gives (NodeEntity.AllApt world) := by
  cases e with | getter receiver key =>
  cases Entity.made hw with | @getter _ _ symbol type _ hsymbol hdetails =>
  have htype : type.index < world.table.types.size :=
    hclosed.type_lt hsymbol (by simp [SymbolDetails.types, hdetails])
  refine (World.accessorAnnotations_gives hclosed h (fun _ => hclosed.annotations_of_symbol hsymbol)
    (h.above rfl) _ _).bind fun annotations hannotations => ?_
  refine (World.primaryReference_gives h htype).bind fun type htype => .pure ?_
  simp only [List.forall_mem_append, List.forall_mem_map, List.forall_mem_singleton]
  exact ⟨hannotations, htype⟩

theorem setter_below {e : Entity (.node .setter)} (h : e.node.Apt world) {w : SetterNode}
    (hw : e.portrait world = .ok w) : (setter.below world e w).Gives (NodeEntity.AllApt world) := by
  cases e with | setter receiver key =>
  obtain ⟨hsymbol, hdetails⟩ : world.table.symbols[key.index]? = some w.symbol ∧
      w.symbol.details = .setter w.parameterKey := by
    cases Entity.made hw with | setter _ hsymbol hdetails => exact ⟨hsymbol, hdetails⟩
  have hset := hclosed.setters w.symbol (Array.mem_of_getElem? hsymbol)
  obtain ⟨parameter, hparameter⟩ : ∃ parameter, w.parameterKey = some parameter :=
    Option.ne_none_iff_exists'.mp fun hnone => hset (hnone ▸ hdetails)
  have hsort : world.table.sort? parameter = some .valueParameter :=
    hclosed.sort?_of_slot_singleton hsymbol (by simp [SymbolRecord.slots, hdetails, hparameter])
  refine (World.accessorAnnotations_gives hclosed h (fun _ => hclosed.annotations_of_symbol hsymbol)
    (h.above rfl) _ _).bind fun annotations hannotations => ?_
  refine (World.setterParameter_gives h hparameter hsort).bind fun parameter hparameter => .pure ?_
  simp only [List.forall_mem_append, List.forall_mem_map, List.forall_mem_singleton]
  exact ⟨hannotations, hparameter⟩

theorem valueParameter_below {e : Entity (.node .valueParameter)} (h : e.node.Apt world)
    {w : ValueParameterNode} (hw : e.portrait world = .ok w) :
    (valueParameter.below world e w).Gives (NodeEntity.AllApt world) := by
  cases e with | valueParameter key parent =>
  cases Entity.made hw with | @valueParameter _ symbol p _ _ hsymbol hdetails =>
  have htype : p.type.index < world.table.types.size :=
    hclosed.type_lt hsymbol (by simp [SymbolDetails.types, hdetails])
  refine (World.parameterAnnotations_gives hclosed h fun _ => hclosed.annotations_of_symbol hsymbol).bind
    fun annotations hannotations => ?_
  refine (World.primaryReference_gives h htype).bind fun type htype => .pure ?_
  simp only [List.forall_mem_append, List.forall_mem_map, List.forall_mem_singleton]
  exact ⟨hannotations, htype⟩

theorem typeParameter_below {e : Entity (.node .typeParameter)} (h : e.node.Apt world)
    {w : TypeParameterNode} (hw : e.portrait world = .ok w) :
    (typeParameter.below world e w).Gives (NodeEntity.AllApt world) := by
  cases e with | typeParameter key =>
  cases Entity.made hw with | @typeParameter _ symbol p _ hsymbol hdetails =>
  have hbounds : ∀ type ∈ p.bounds, type.index < world.table.types.size :=
    fun type htype => hclosed.type_lt hsymbol (by simpa [SymbolDetails.types, hdetails] using htype)
  refine (World.selectAnnotations_gives h _ fun _ => hclosed.annotations_of_symbol hsymbol).bind
    fun annotations hannotations => ?_
  refine (World.entries_gives h hbounds 0).bind fun bounds hbounds => .pure ?_
  simp only [List.forall_mem_append, List.forall_mem_map]
  exact ⟨hannotations, hbounds⟩

theorem typeReference_below {e : Entity (.node .typeReference)} (h : e.node.Apt world)
    {w : TypeReference} (hw : e.portrait world = .ok w) :
    (typeReference.below world e w).Gives (NodeEntity.AllApt world) := by
  have htype : w.type.index < world.table.types.size := h.type (Entity.type?_of_portrait hw)
  have hrecord := Array.getElem?_eq_getElem htype
  have hannotations : (LazyField.referenceAnnotations.sight world e w).Gives (Entity.AllApt world) := by
    rw [LazyField.sight, World.inquire_type hrecord, Meaning.ok_bind]
    exact World.wrapAnnotations_gives h fun _ => hclosed.annotations_of_type hrecord
  refine hannotations.bind fun annotations hannotations => ?_
  refine (World.element_gives hclosed h htype).bind fun element helement => .pure ?_
  simp only [List.forall_mem_append, List.forall_mem_map]
  exact ⟨hannotations, helement⟩

theorem classifierReference_below {e : Entity (.node .classifierReference)} (h : e.node.Apt world)
    {w : ClassifierReference} (hw : e.portrait world = .ok w) :
    (classifierReference.below world e w).Gives (NodeEntity.AllApt world) := by
  cases e with | classifierReference type owner =>
  cases Entity.made hw with | @classifierReference _ record _ arguments _ _ _ hrecord hshape =>
  have htypes : ∀ type ∈ arguments.filterMap TypeArgument.type?, type.index < world.table.types.size :=
    fun type htype => hclosed.part_lt hrecord (by simpa [TypeRecord.parts, hshape] using htype)
  refine (World.typeArguments_gives h htypes).bind fun arguments harguments => .pure ?_
  simpa only [List.forall_mem_map] using harguments

theorem callableReference_below {e : Entity (.node .callableReference)} (h : e.node.Apt world)
    {w : CallableReference} (hw : e.portrait world = .ok w) :
    (callableReference.below world e w).Gives (NodeEntity.AllApt world) := by
  cases e with | callableReference type owner =>
  cases Entity.made hw with | @callableReference _ record shape _ _ _ hrecord hshape =>
  have htypes : ∀ type ∈ shape.receiver.toList ++ shape.parameters ++ [shape.returnType],
      type.index < world.table.types.size := fun type htype => by
    refine hclosed.part_lt hrecord ?_
    simp only [TypeRecord.parts, hshape, List.append_assoc] at htype ⊢
    exact List.mem_append_right _ htype
  simp only [List.forall_mem_append, List.forall_mem_singleton] at htypes
  obtain ⟨⟨hreceiver, hparameters⟩, hreturnType⟩ := htypes
  refine (World.receiverType_gives h hreceiver).bind fun receiver hreceiver => ?_
  refine .bind (Meaning.Gives.mapM fun type htype =>
    World.primaryReference_gives h (hparameters type htype)) fun parameters hparameters => ?_
  refine (World.primaryReference_gives h hreturnType).bind fun returnType hreturnType => .pure ?_
  simp only [List.forall_mem_append, List.forall_mem_map, List.forall_mem_singleton]
  exact ⟨⟨hreceiver, hparameters⟩, hreturnType⟩

theorem annotationUse_below {e : Entity (.node .annotationUse)} (h : e.node.Apt world)
    {w : AnnotationNode} (hw : e.portrait world = .ok w) :
    (annotationUse.below world e w).Gives (NodeEntity.AllApt world) := by
  have hrecord : w.record ∈ world.table.annotations := by
    cases e <;> cases Entity.made hw with | annotationUse _ _ hrecord =>
    exact Array.mem_of_getElem? hrecord
  refine (World.annotationType_gives hclosed h w).bind fun type htype => ?_
  refine (World.arguments_gives hclosed h hw hrecord).bind fun arguments harguments => .pure ?_
  simp only [List.forall_mem_append, List.forall_mem_map]
  exact ⟨htype, harguments⟩

/-- In a closed table all children of an apt node can be found, and they are apt. -/
theorem below_gives {e : Entity (.node kind)} (h : e.node.Apt world) {w : kind.Wrapper}
    (hw : e.portrait world = .ok w) : (kind.below world e w).Gives (NodeEntity.AllApt world) := by
  cases kind with
  | file => exact file_below hclosed h hw
  | classLike => exact classLike_below hclosed h hw
  | function => exact function_below hclosed h hw
  | property => exact property_below hclosed h hw
  | getter => exact getter_below hclosed h hw
  | setter => exact setter_below hclosed h hw
  | valueParameter => exact valueParameter_below hclosed h hw
  | typeParameter => exact typeParameter_below hclosed h hw
  | typeReference => exact typeReference_below hclosed h hw
  | classifierReference => exact classifierReference_below hclosed h hw
  | callableReference => exact callableReference_below hclosed h hw
  | annotationUse => exact annotationUse_below hclosed h hw
  | dynamicReference | valueArgument => exact .nil

end

end NodeKind

end SymbolGraph
