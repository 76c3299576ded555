import SymbolGraph.Proofs.Meaning.Apt

/-!
# Questions that have an answer

In a closed table every question about an apt entity that finds some of its children has an answer, and
these children are apt as well. The questions are gone through one by one.
-/

namespace SymbolGraph

variable {world : World} {kind : NodeKind} {e : Entity (.node kind)}

/-- All of these nodes are apt. -/
abbrev NodeEntity.AllApt (world : World) (ns : List NodeEntity) : Prop := ∀ n ∈ ns, n.Apt world

/-- All of these entities are apt nodes. -/
abbrev Entity.AllApt (world : World) (es : List (Entity (.node kind))) : Prop :=
  ∀ e ∈ es, e.node.Apt world

namespace World

theorem inquire_symbol {key : SymbolKey} {symbol : SymbolRecord}
    (h : world.table.symbols[key.index]? = some symbol) : world.inquire (.symbol key) = .ok symbol :=
  inquire_of_told (i := .symbol key) h

theorem inquire_type {key : TypeKey} {type : TypeRecord}
    (h : world.table.types[key.index]? = some type) : world.inquire (.type key) = .ok type :=
  inquire_of_told (i := .type key) h

theorem glance_classByName (name : String) :
    world.glance (.classByName name) = world.table.classesByName[name]? := rfl

/-! ## Annotations -/

theorem wrapAnnotations_gives (h : e.node.Apt world) {keys : List AnnotationKey}
    (hkeys : ∀ key ∈ keys, key.index < world.table.annotations.size) :
    (world.wrapAnnotations e.node keys).Gives (Entity.AllApt world) :=
  .mapM fun key hkey => wrap_gives (Entity.apt_annotationUse (hkeys key hkey) h)

theorem selectAnnotations_gives (h : e.node.Apt world) (wanted : Option UseSiteTarget → Bool)
    {keys : List AnnotationKey} (hkeys : ∀ key ∈ keys, key.index < world.table.annotations.size) :
    (world.selectAnnotations e.node wanted keys).Gives (Entity.AllApt world) := by
  induction keys with
  | nil => exact .nil
  | cons key keys ih =>
    obtain ⟨hkey, hkeys⟩ := List.forall_mem_cons.mp hkeys
    have hrecord : world.inquire (.annotationUse key) = .ok world.table.annotations[key.index] :=
      inquire_of_told (i := .annotationUse key) (Array.getElem?_eq_getElem hkey)
    rw [selectAnnotations, hrecord, Meaning.ok_bind]
    split
    · exact .cons (wrap_gives (Entity.apt_annotationUse hkey h)) (ih hkeys)
    · exact ih hkeys

/-! ## Signatures -/

theorem primaryReference_gives (h : e.node.Apt world) {type : TypeKey}
    (htype : type.index < world.table.types.size) :
    (world.primaryReference type e.node).Gives fun r => r.node.Apt world :=
  wrap_gives (Entity.apt_typeReference htype h _)

theorem receiverType_gives (h : e.node.Apt world) {type : Option TypeKey}
    (htype : ∀ key ∈ type.toList, key.index < world.table.types.size) :
    (world.receiverType e.node type).Gives fun r => Entity.AllApt world r.toList := by
  cases type with
  | none => exact .none
  | some type => exact .some (primaryReference_gives h (htype type (by simp)))

theorem entries_gives (h : e.node.Apt world) {types : List TypeKey}
    (htypes : ∀ type ∈ types, type.index < world.table.types.size) (index : Nat) :
    (world.entries e.node index types).Gives (Entity.AllApt world) := by
  induction types generalizing index with
  | nil => exact .nil
  | cons type types ih =>
    obtain ⟨htype, htypes⟩ := List.forall_mem_cons.mp htypes
    exact .cons (wrap_gives (Entity.apt_typeReference htype h index)) (ih htypes (index + 1))

theorem typeParameters_gives {keys : List SymbolKey}
    (hkeys : ∀ key ∈ keys, world.table.sort? key = some .typeParameter) :
    (world.typeParameters keys).Gives (Entity.AllApt world) :=
  .mapM fun key hkey => wrap_gives (Entity.apt_symbol rfl (hkeys key hkey) (by simp [Entity.above]))

theorem parameters_gives (h : e.node.Apt world) {keys : List SymbolKey}
    (hkeys : ∀ key ∈ keys, world.table.sort? key = some .valueParameter) :
    (world.parameters e.node keys).Gives (Entity.AllApt world) :=
  .mapM fun key hkey => wrap_gives (Entity.apt_symbol rfl (hkeys key hkey) (by simp [Entity.above, h]))

theorem declaration_gives {key : SymbolKey}
    (hkey : ∃ kind ∈ NodeKind.members, world.table.sort? key = some kind) :
    (world.declaration key).Gives fun n => n.Apt world := by
  obtain ⟨kind, hkind, hsort⟩ := hkey
  obtain ⟨symbol, hsymbol, rfl⟩ := SymbolTable.sort?_eq_some hsort
  rw [declaration, inquire_symbol hsymbol, Meaning.ok_bind]
  have hwrap {kind : NodeKind} {e : Entity (.node kind)} (he : e.symbol? = some key)
      (habove : e.above = none) (hkind : symbol.details.sort = kind) :
      (do return (← world.wrap e).node : Meaning NodeEntity).Gives fun n => n.Apt world := by
    have hapt := Entity.apt_symbol he (hkind ▸ hsort) (by simp [habove])
    exact (wrap_gives hapt).bind fun _ h => .pure h
  cases hdetails : symbol.details with
  | classLike => exact hwrap rfl rfl (by rw [hdetails]; rfl)
  | function => exact hwrap rfl rfl (by rw [hdetails]; rfl)
  | property => exact hwrap rfl rfl (by rw [hdetails]; rfl)
  | typeParameter | getter | setter | valueParameter =>
    simp [hdetails, SymbolDetails.sort, NodeKind.members] at hkind

theorem declarations_gives {keys : List SymbolKey}
    (hkeys : ∀ key ∈ keys, ∃ kind ∈ NodeKind.members, world.table.sort? key = some kind) :
    (keys.mapM world.declaration).Gives (NodeEntity.AllApt world) :=
  .mapM fun key hkey => declaration_gives (hkeys key hkey)

theorem getter_gives {p : PropertyNode} (h : (Entity.property p.key).node.Apt world)
    (hgetter : ∀ key ∈ p.details.getter, world.table.sort? key = some .getter) :
    (world.getter p).Gives fun g => Entity.AllApt world g.toList := by
  unfold getter
  cases hkey : p.details.getter with
  | none => exact .none
  | some key => exact .some (wrap_gives (Entity.apt_symbol rfl (hgetter key hkey) (by simp [Entity.above, h])))

theorem setter_gives {p : PropertyNode} (h : (Entity.property p.key).node.Apt world)
    (hsetter : ∀ key ∈ p.details.setter, world.table.sort? key = some .setter) :
    (world.setter p).Gives fun s => Entity.AllApt world s.toList := by
  unfold setter
  cases hkey : p.details.setter with
  | none => exact .none
  | some key => exact .some (wrap_gives (Entity.apt_symbol rfl (hsetter key hkey) (by simp [Entity.above, h])))

theorem setterParameter_gives {e : Entity (.node .setter)} (h : e.node.Apt world) {s : SetterNode}
    {key : SymbolKey} (hkey : s.parameterKey = some key)
    (hparameter : world.table.sort? key = some .valueParameter) :
    (world.setterParameter e s).Gives fun p => p.node.Apt world := by
  simp only [setterParameter, hkey]
  exact wrap_gives (Entity.apt_symbol rfl hparameter (by simp [Entity.above, h]))

/-! ## Types and arguments -/

theorem typeArguments_gives (h : e.node.Apt world) {arguments : List (TypeArgument TypeKey)}
    (htypes : ∀ type ∈ arguments.filterMap TypeArgument.type?, type.index < world.table.types.size) :
    (world.typeArguments e.node arguments).Gives fun arguments =>
      Entity.AllApt world (arguments.filterMap TypeArgument.type?) := by
  induction arguments with
  | nil => exact .pure (by simp [Entity.AllApt])
  | cons argument arguments ih =>
    unfold typeArguments
    cases argument with
    | star => exact (ih htypes).bind fun rest hrest => .pure hrest
    | projection variance type =>
      obtain ⟨htype, htypes⟩ := List.forall_mem_cons.mp htypes
      simp only [pure_bind]
      refine (primaryReference_gives h htype).bind fun r hr => ?_
      exact (ih htypes).bind fun rest hrest => .pure (List.forall_mem_cons.mpr ⟨hr, hrest⟩)

theorem writtenArguments_gives {e : Entity (.node .annotationUse)} (h : e.node.Apt world)
    {w : AnnotationNode} (hw : e.portrait world = .ok w) {position : Nat}
    {arguments : List ArgumentRecord} (harguments : w.record.arguments.drop position = arguments) :
    (world.writtenArguments e position arguments).Gives (Entity.AllApt world) := by
  induction arguments generalizing position with
  | nil => exact .nil
  | cons argument arguments ih =>
    have hposition : position < w.record.arguments.length := by
      by_contra hge
      rw [List.drop_eq_nil_of_le (Nat.le_of_not_lt hge)] at harguments
      cases harguments
    have hrest : w.record.arguments.drop (position + 1) = arguments := by
      simpa using congrArg List.tail harguments
    exact .cons (wrap_gives (Entity.apt_written h hw hposition)) (ih hrest)

theorem parametersOf_gives {w : AnnotationNode} {constructor : SymbolRecord} {details : FunctionDetails}
    (hdetails : constructor.details = .function details)
    (hparameters : ∀ key ∈ details.valueParameters, world.table.sort? key = some .valueParameter) :
    (world.parametersOf w constructor).Gives fun parameters => ∀ p ∈ parameters,
      world.table.symbols[p.1.index]? = some p.2 ∧ p.1 ∈ details.valueParameters := by
  simp only [parametersOf, hdetails]
  refine .mapM fun key hkey => ?_
  obtain ⟨parameter, hparameter, _⟩ := SymbolTable.sort?_eq_some (hparameters key hkey)
  rw [inquire_symbol hparameter, Meaning.ok_bind]
  exact .pure ⟨hparameter, hkey⟩

theorem defaultValue_eq_ok {parameter : SymbolRecord}
    (h : ∀ source ∈ parameter.source, source.form = .native) :
    ∃ value, world.defaultValue parameter = .ok value := by
  unfold defaultValue
  cases hsource : parameter.source with
  | none => exact ⟨none, rfl⟩
  | some source =>
    simp only [h source hsource]
    cases source.defaultValue with
    | none => exact ⟨none, rfl⟩
    | some expression => exact ⟨_, rfl⟩

/-! ## Return types -/

section

variable (hclosed : world.table.Closed)

include hclosed

/-- A constructor lies in a class, which has its types. -/
theorem containerNode_of_constructor {key : SymbolKey} {symbol : SymbolRecord}
    (hsymbol : world.table.symbols[key.index]? = some symbol)
    (hconstructor : symbol.details.isConstructor = true) : ∃ owner types,
      world.containerNode symbol = .ok (some (Entity.classLike owner).node) ∧
        world.table.classTypes[owner]? = some types := by
  obtain ⟨owner, types, howner, hsort, htypes⟩ :=
    hclosed.constructed symbol (Array.mem_of_getElem? hsymbol) hconstructor
  obtain ⟨outer, _, houter, hdetails⟩ := SymbolTable.exists_classLike hsort
  have hapt : (Entity.classLike owner).node.Apt world :=
    Entity.apt_symbol rfl hsort (by simp [Entity.above])
  obtain ⟨w, hw⟩ := hapt.portrait
  refine ⟨owner, types, ?_, htypes⟩
  simp [containerNode, howner, inquire_symbol houter, hdetails, declaration, wrap, hw]

variable {f : FunctionNode}

theorem foundType_lt (hsort : world.table.sort? f.key = some .function) :
    ∃ type, world.foundType f = some type ∧ type.index < world.table.types.size := by
  obtain ⟨known, hknown⟩ := hclosed.returnType hsort
  have hlt := hclosed.type_lt_of_known (.inl hknown)
  unfold foundType settledType
  split
  · cases hdeferred : world.table.returnTypes.deferred[f.key]? with
    | none => exact ⟨known, by simpa using hknown, hlt⟩
    | some type => exact ⟨type, rfl, hclosed.type_lt_of_known (.inr hdeferred)⟩
  · exact ⟨known, hknown, hlt⟩

section

variable (hsymbol : world.table.symbols[f.key.index]? = some f.symbol)
  (hdetails : f.symbol.details = .function f.details)

include hsymbol hdetails

theorem prepare_eq_ok : world.prepare f = .ok () := by
  refine if_neg ?_
  rintro ⟨hneeds, hcontainer⟩
  simp only [FunctionNode.needsSettling, Bool.and_eq_true] at hneeds
  refine hclosed.interopMethods f.symbol (Array.mem_of_getElem? hsymbol) ?_ hcontainer
  rw [hdetails]
  exact hneeds.2

theorem returnTypeKey_gives :
    (world.returnTypeKey f).Gives fun type => type.index < world.table.types.size := by
  unfold returnTypeKey
  split
  · rename_i hconstructor
    have hconstructor : f.symbol.details.isConstructor = true := by rwa [hdetails]
    obtain ⟨owner, types, hcontainer, htypes⟩ := containerNode_of_constructor hclosed hsymbol hconstructor
    have hstar : world.inquire (.starProjectedType owner) = .ok types.star :=
      inquire_of_told (i := .starProjectedType owner) (by simp [Inquiry.Told, htypes])
    exact ⟨types.star, by simp [hcontainer, hstar], (hclosed.classTypes htypes).2⟩
  · have hsort : world.table.sort? f.key = some .function := by
      simp [SymbolTable.sort?, hsymbol, hdetails, SymbolDetails.sort]
    obtain ⟨type, htype, hlt⟩ := foundType_lt hclosed hsort
    rw [htype]
    exact .pure hlt

theorem returnType_gives (h : (Entity.function f.key).node.Apt world) :
    (world.returnType f).Gives fun r => r.node.Apt world := by
  rw [returnType, prepare_eq_ok hclosed hsymbol hdetails, Meaning.ok_bind]
  exact (returnTypeKey_gives hclosed hsymbol hdetails).bind fun type htype =>
    primaryReference_gives h htype

end

/-! ## Annotations of declarations, accessors and parameters -/

theorem declarationAnnotations_gives {kind : NodeKind} {e : Entity (.node kind)} (h : e.node.Apt world)
    {w : kind.Wrapper} (hw : e.portrait world = .ok w) {d : Declaration}
    (hd : kind.declaration? w = some d) :
    (world.declarationAnnotations d).Gives (Entity.AllApt world) := by
  cases kind <;> cases hd <;> cases e <;> cases Entity.made hw <;>
    exact selectAnnotations_gives h _ fun _ => hclosed.annotations_of_symbol (by assumption)

/-- The annotations of a property, as its accessors see them. -/
theorem exists_property {receiver : SymbolKey} (h : (Entity.property receiver).node.Apt world) :
    ∃ p : PropertyNode, (Entity.property receiver).portrait world = .ok p ∧
      ∀ key ∈ p.symbol.annotations, key.index < world.table.annotations.size := by
  obtain ⟨p, hp⟩ := h.portrait
  cases Entity.made hp with | property _ hsymbol =>
  exact ⟨_, hp, fun _ => hclosed.annotations_of_symbol hsymbol⟩

theorem accessorAnnotations_gives {e : Entity (.node kind)} (h : e.node.Apt world) {a : Accessor}
    (hannotations : ∀ key ∈ a.symbol.annotations, key.index < world.table.annotations.size)
    {receiver : SymbolKey} (hreceiver : (Entity.property receiver).node.Apt world)
    (excluded pulled : UseSiteTarget) :
    (world.accessorAnnotations a e.node receiver excluded pulled).Gives (Entity.AllApt world) := by
  obtain ⟨p, hp, hproperty⟩ := exists_property hclosed hreceiver
  unfold accessorAnnotations
  refine (selectAnnotations_gives h _ hannotations).bind fun own hown => ?_
  rw [hp, Meaning.ok_bind]
  refine (selectAnnotations_gives h _ hproperty).bind fun pulled hpulled => .pure ?_
  exact List.forall_mem_append.mpr ⟨hown, hpulled⟩

theorem parameterAnnotations_gives {key : SymbolKey} {parent : Entity (.node kind)}
    (h : (Entity.valueParameter key parent).node.Apt world) {p : ValueParameterNode}
    (hannotations : ∀ key ∈ p.symbol.annotations, key.index < world.table.annotations.size) :
    (world.parameterAnnotations p (Entity.valueParameter key parent).node parent).Gives
      (Entity.AllApt world) := by
  unfold parameterAnnotations
  refine (wrapAnnotations_gives h hannotations).bind fun own hown => ?_
  cases parent
  case setter receiver setterKey =>
    have hsetter : (Entity.setter receiver setterKey).node.Apt world := h.above rfl
    obtain ⟨p, hp, hproperty⟩ := exists_property hclosed (hsetter.above rfl)
    simp only [hp, Meaning.ok_bind]
    refine (selectAnnotations_gives h _ hproperty).bind fun pulled hpulled => .pure ?_
    exact List.forall_mem_append.mpr ⟨hown, hpulled⟩
  all_goals exact .pure hown

/-! ## Elements -/

theorem elementOf_gives {e : Entity (.node .typeReference)} (h : e.node.Apt world) {w : TypeReference}
    {type : TypeRecord} (htype : world.table.types[w.type.index]? = some type) :
    (world.elementOf e w type).Gives fun n => NodeEntity.AllApt world n.toList := by
  have hwrap {kind : NodeKind} {e : Entity (.node kind)} (he : e.node.Apt world) :
      (do return some (← world.wrap e).node : Meaning (Option NodeEntity)).Gives
        fun n => NodeEntity.AllApt world n.toList :=
    (wrap_gives he).bind fun _ he => .pure (by simpa [NodeEntity.AllApt] using he)
  have hallowed := hclosed.shapes type (Array.mem_of_getElem? htype)
  unfold elementOf
  cases hshape : type.shape with
  | functional => exact hwrap (Entity.apt_callableReference h htype hshape)
  | dynamic => exact hwrap (Entity.apt_dynamicReference h)
  | classType => exact hwrap (Entity.apt_classifierReference h htype (by rw [hshape]; rfl))
  | flexible lower upper =>
    rw [hshape] at hallowed
    obtain ⟨bound, hbound, hclass⟩ := Option.any_eq_true _ _ |>.mp hallowed
    simp only [inquire_type hbound, Meaning.ok_bind]
    have hapt := Entity.apt_classifierReference h hbound hclass
    cases hboundShape : bound.shape <;> rw [hboundShape] at hclass <;> cases hclass
    exact hwrap hapt
  | error | classError | typeParameter => exact .none
  | intersection | definitelyNotNull =>
    rw [hshape] at hallowed
    cases hallowed

theorem element_gives {e : Entity (.node .typeReference)} (h : e.node.Apt world) {w : TypeReference}
    (htype : w.type.index < world.table.types.size) :
    (world.element e w).Gives fun n => NodeEntity.AllApt world n.toList := by
  unfold element
  split
  · exact .none
  · have hrecord := Array.getElem?_eq_getElem htype
    rw [inquire_type hrecord, Meaning.ok_bind]
    exact elementOf_gives hclosed h hrecord

/-! ## Arguments of annotations -/

/-- The parameters of the constructor that is found are those that defaults are taken from. -/
theorem soleConstructor_gives (w : AnnotationNode) :
    (world.soleConstructor w).Gives fun found => ∀ constructor ∈ found, ∃ details,
      constructor.details = .function details ∧ ∀ key ∈ details.valueParameters,
        world.table.sort? key = some .valueParameter ∧
          key ∈ world.table.defaultParameters w.record := by
  unfold soleConstructor
  cases hname : w.record.className with
  | none => exact .pure (by simp)
  | some className =>
    simp only [glance_classByName]
    cases hfound : world.table.classesByName[className]? with
    | none => exact .pure (by simp)
    | some key =>
      obtain ⟨owner, c, howner, hc⟩ := SymbolTable.exists_classLike (hclosed.named hfound).1
      simp only [inquire_symbol howner, Meaning.ok_bind, hc]
      split
      · rename_i constructor hconstructors
        have hsort : world.table.sort? constructor = some .function :=
          hclosed.sort?_of_slot_singleton howner (by simp [SymbolRecord.slots, hc, hconstructors])
        obtain ⟨symbol, f, hsymbol, hf⟩ := SymbolTable.exists_function hsort
        rw [inquire_symbol hsymbol, Meaning.ok_bind]
        refine .pure fun _ h => ?_
        cases h
        refine ⟨f, hf, fun key hkey => ⟨?_, ?_⟩⟩
        · exact hclosed.sort?_of_slot_singleton hsymbol (by simp [SymbolRecord.slots, hf, hkey])
        -- The table follows an annotation to the same constructor.
        · obtain ⟨_, _, _, _⟩ := c
          cases hconstructors
          simp [SymbolTable.defaultParameters, hname, hfound, howner, hc, hsymbol, hf, hkey]
      · exact .pure (by simp)

theorem defaultsFor_gives {e : Entity (.node .annotationUse)} (h : e.node.Apt world)
    {record : AnnotationRecord} (hrecord : record ∈ world.table.annotations) (covered : List String)
    {parameters : List (SymbolKey × SymbolRecord)}
    (hparameters : ∀ p ∈ parameters, world.table.symbols[p.1.index]? = some p.2 ∧
      p.1 ∈ world.table.defaultParameters record) :
    (world.defaultsFor e covered parameters).Gives (Entity.AllApt world) := by
  induction parameters with
  | nil => exact .nil
  | cons p parameters ih =>
    obtain ⟨key, parameter⟩ := p
    obtain ⟨⟨hparameter, hkey⟩, hparameters⟩ := List.forall_mem_cons.mp hparameters
    have hrest := ih hparameters
    unfold defaultsFor
    cases hname : parameter.name with
    | none => exact hrest
    | some name =>
      simp only
      split
      · exact hrest
      · obtain ⟨value, hvalue⟩ :=
          defaultValue_eq_ok (hclosed.defaults record hrecord key hkey parameter hparameter)
        rw [hvalue, Meaning.ok_bind]
        cases value with
        | none => exact hrest
        | some value => exact .cons (wrap_gives (Entity.apt_default h hparameter hname hvalue)) hrest

theorem arguments_gives {e : Entity (.node .annotationUse)} (h : e.node.Apt world) {w : AnnotationNode}
    (hw : e.portrait world = .ok w) (hrecord : w.record ∈ world.table.annotations) :
    (world.arguments e w).Gives (Entity.AllApt world) := by
  unfold arguments
  refine (writtenArguments_gives h hw rfl).bind fun written hwritten => ?_
  refine (soleConstructor_gives hclosed w).bind fun found hfound => ?_
  cases found with
  | none => exact .pure hwritten
  | some constructor =>
    obtain ⟨details, hdetails, hparameters⟩ := hfound constructor rfl
    refine (parametersOf_gives hdetails fun key hkey => (hparameters key hkey).1).bind
      fun parameters hp => ?_
    have hdefaults : ∀ p ∈ parameters, world.table.symbols[p.1.index]? = some p.2 ∧
        p.1 ∈ world.table.defaultParameters w.record :=
      fun p hmem => ⟨(hp p hmem).1, (hparameters p.1 (hp p hmem).2).2⟩
    exact (defaultsFor_gives hclosed h hrecord _ hdefaults).bind fun defaults hdefaults =>
      .pure (List.forall_mem_append.mpr ⟨hwritten, hdefaults⟩)

theorem annotationType_gives {e : Entity (.node .annotationUse)} (h : e.node.Apt world)
    (w : AnnotationNode) :
    (world.annotationType e w).Gives fun r => Entity.AllApt world r.toList := by
  unfold annotationType
  cases w.record.className with
  | none => exact .none
  | some className =>
    simp only [glance_classByName]
    cases hfound : world.table.classesByName[className]? with
    | none => exact .none
    | some key =>
      obtain ⟨_, types, htypes⟩ := hclosed.named hfound
      have hown : world.inquire (.classType key) = .ok types.own :=
        inquire_of_told (i := .classType key) (by simp [Inquiry.Told, htypes])
      simp only [hown, Meaning.ok_bind]
      exact .some (primaryReference_gives h (hclosed.classTypes htypes).1)

end

end World

end SymbolGraph
