import SymbolGraph.Proofs.Meaning.Arguments
import SymbolGraph.Proofs.Tidy.Containment

/-!
# Fields in tidy sessions

Every field of an issued wrapper yields what is known of its value.
-/

namespace SymbolGraph

variable {world : World} {table : SymbolTable} {caches later : Caches} {kind : Kind}
  {field : Field}

/-! ## Annotations -/

theorem Declaration.annotations_yields {d : Declaration} {key : SymbolKey}
    (hd : d.FoundUnder caches key) :
    Yields world caches d.annotations (.declarationAnnotations world.table d) := by
  refine .of_genuine fun hgrows hgenuine => ?_
  have hd := hd.grows hgrows
  cases d with
  | classLike w =>
    exact .field .classAnnotations (hgenuine.issued_of_lookup hd)
      (Query.selectAnnotations_yields _ _ _)
  | function w =>
    exact .field .functionAnnotations (hgenuine.issued_of_lookup hd)
      (Query.selectAnnotations_yields _ _ _)
  | property w =>
    exact .field .propertyAnnotations (hgenuine.issued_of_lookup hd)
      (Query.selectAnnotations_yields _ _ _)
  | typeParameter w =>
    exact .field .typeParameterAnnotations (hgenuine.issued_of_lookup hd)
      (Query.selectAnnotations_yields _ _ _)

theorem Accessor.annotations_compute_yields (a : Accessor) (bearer : NodeId)
    (excluded pulled : UseSiteTarget) :
    Yields world caches
      (do
        let own ← Query.selectAnnotations bearer (· ≠ some excluded) a.symbol.annotations
        let property ← Query.resolve a.receiver
        let pulled ← Query.selectAnnotations bearer (· = some pulled) property.symbol.annotations
        return own ++ pulled)
      (.accessorAnnotations world.table a bearer excluded pulled) := by
  refine .bind (Query.selectAnnotations_yields _ _ _) fun _ _ hown => ?_
  refine .bind (.resolve _) fun {property _} hgrows _ hproperty => ?_
  refine .bind (Query.selectAnnotations_yields _ _ _) fun hgrows' _ hpulled => ?_
  have hown := Fact.grows _ (Fact.grows _ hown hgrows) hgrows'
  refine .pure ⟨property, hproperty.grows hgrows', ?_, Fact.annotations_append hown.2 hpulled.2⟩
  exact List.forall_mem_append.mpr ⟨hown.1, hpulled.1⟩

theorem ValueParameterNode.annotations_yields {p : ValueParameterNode}
    (hp : caches.Issued p.id p) :
    Yields world caches p.annotations (.parameterAnnotations world.table p) := by
  refine .field .valueParameterAnnotations hp ?_
  refine .bind (Query.wrapAnnotations_yields _ _) fun {own _} _ _ hown => ?_
  cases hkind : p.parent.kind
  case setter =>
    refine .bind (.resolve _) fun {setter _} hgrows _ hsetter => ?_
    refine .bind (.resolve _) fun {property _} hgrows' _ hproperty => ?_
    refine .bind (Query.selectAnnotations_yields _ _ _) fun hgrows'' _ hpulled => ?_
    have hgrows := hgrows'.trans hgrows''
    have hown := Fact.grows _ (Fact.grows _ hown ‹_›) hgrows
    refine .pure ⟨_, .setter hkind (hsetter.grows hgrows) (hproperty.grows hgrows''), ?_⟩
    exact Fact.annotations_append hown hpulled.2
  all_goals exact .pure ⟨_, .own (by rw [hkind]; nofun), hown⟩

/-! ## Modifiers and documentation -/

theorem Accessor.modifiers_compute_yields (a : Accessor) :
    Yields world caches
      (do
        let written := a.symbol.keywordModifiers
        if a.symbol.accessorOrigin = .synthetic then
          let property ← Query.resolve a.receiver
          match ← (Declaration.property property).parentDeclaration with
          | some (.classLike c) =>
            return written.insertIf ((← c.category) = .interface) .abstract
          | _ => return written
        else return written)
      .any := by
  dsimp only
  split
  · refine .bind (.resolve _) fun {property _} _ hgenuine hproperty => ?_
    obtain ⟨key, hfound⟩ := hgenuine.exists_key hproperty
    refine .bind (Declaration.parentDeclaration_yields (d := .property property) hfound) ?_
    intro outer _ _ _ _
    split
    · exact .consult (.bind (ClassNode.category_consult _) fun _ => .pure _)
    · exact .pure trivial
  · exact .pure trivial

/-- A class right around a symbol is the node that it lies in, and no other node is a class. -/
theorem SymbolRecord.Encloses.enclosingClass? {symbol : SymbolRecord} {node : Option NodeId}
    (h : symbol.Encloses caches node) (hgenuine : caches.Genuine table) :
    (∃ w : ClassNode, node = some w.id.node ∧ caches.Issued w.id w ∧
      table.enclosingClass? symbol = some w.symbol) ∨
    (∀ index, node ≠ some ⟨.classLike, index⟩) ∧ table.enclosingClass? symbol = none := by
  cases h with
  | nothing hcontainer => exact .inr ⟨by simp, by simp [SymbolTable.enclosingClass?, hcontainer]⟩
  | file hcontainer =>
    exact .inr ⟨fun _ h => (by cases h), by simp [SymbolTable.enclosingClass?, hcontainer]⟩
  | @declaration key d hcontainer hd =>
    have hshown := hd.genuine hgenuine
    have hclass := SymbolTable.enclosingClass?_of_container hcontainer hshown.symbol
    by_cases hsort : d.symbol.details.sort = .classLike
    · cases d with
      | classLike w =>
        exact .inl ⟨w, rfl, hgenuine.issued_of_lookup hd, hclass.trans (if_pos hsort)⟩
      | function w | property w | typeParameter w => cases hshown.sort.symm.trans hsort
    · refine .inr ⟨fun index h => hsort ?_, hclass.trans (if_neg hsort)⟩
      exact hshown.sort.trans (congrArg NodeId.kind (Option.some.inj h))
  | getter hcontainer _ _ hg =>
    cases hgenuine.made _ hg with | getter id hsymbol hdetails =>
    have hclass := SymbolTable.enclosingClass?_of_container hcontainer hsymbol
    exact .inr ⟨fun _ h => (by cases h), hclass.trans (by rw [hdetails]; rfl)⟩
  | setter hcontainer _ _ hg =>
    cases hgenuine.made _ hg with | setter id hsymbol hdetails =>
    have hclass := SymbolTable.enclosingClass?_of_container hcontainer hsymbol
    exact .inr ⟨fun _ h => (by cases h), hclass.trans (by rw [hdetails]; rfl)⟩

theorem FunctionNode.isSyntheticConstructor_eq {f : FunctionNode} {key : SymbolKey}
    (h : Made table (.node .function) key f) :
    f.isSyntheticConstructor = f.symbol.isUnwrittenConstructor := by
  cases h with | function id hsymbol hdetails =>
  rw [isSyntheticConstructor, SymbolRecord.isUnwrittenConstructor, hdetails]

theorem FunctionNode.docString_yields {f : FunctionNode} (hf : caches.Issued f.id f) :
    Yields world caches f.docString (.plain (· = world.table.doc f.symbol)) := by
  refine .field .functionDocString hf (.of_genuine fun hgrows hgenuine => ?_)
  obtain ⟨key, hfound⟩ := hgenuine.exists_key (hf.grows hgrows)
  change Yields _ _ _ (.plain (· = world.table.doc f.symbol))
  rw [SymbolTable.doc, isSyntheticConstructor_eq (hgenuine.made _ hfound)]
  split
  · refine .bind (Declaration.parent_yields (d := .function f) hfound) fun _ hgenuine hencloses => ?_
    have hclass := SymbolRecord.Encloses.enclosingClass? hencloses hgenuine
    split
    · rename_i index
      obtain ⟨w, hnode, hw, hdoc⟩ | ⟨hnone, -⟩ := hclass
      · cases hnode
        refine .bind (.resolve _) fun hgrows _ hissued => .pure ?_
        cases hissued.symm.trans (hw.grows hgrows)
        exact (congrArg (Option.bind · SymbolRecord.doc) hdoc).symm
      · exact absurd rfl (hnone index)
    · rename_i hnode
      obtain ⟨w, heq, -⟩ | ⟨-, hdoc⟩ := hclass
      · exact absurd heq (hnode w.id.index)
      · exact .pure (congrArg (Option.bind · SymbolRecord.doc) hdoc).symm
  · exact .pure rfl

/-! ## Signatures -/

namespace Query

theorem reference?_yields (owner : NodeId) (type : Option TypeKey) :
    Yields world caches
      (match type with
        | some type => return some (← primaryReference type owner)
        | none => return none)
      (.reference? owner type) := by
  cases type with
  | none => exact .pure .none
  | some type => exact (primaryReference_yields type owner).map fun _ h => .some h

end Query

namespace FunctionNode

variable {f : FunctionNode}

theorem prepare_yields (f : FunctionNode) : Yields world caches f.prepare .any :=
  .of_sameSession fun s => f.prepare_sameSession world.session s

theorem returnTypeKey_yields (hf : caches.Issued f.id f) :
    Yields world caches f.returnTypeKey (.plain fun type =>
      f.details.isConstructor = true → world.table.constructedType f.symbol = some type) := by
  refine .of_genuine fun hgrows hgenuine => ?_
  obtain ⟨key, hfound⟩ := hgenuine.exists_key (hf.grows hgrows)
  unfold returnTypeKey
  split
  · refine .bind (Declaration.parent_yields (d := .function f) hfound) fun _ _ hencloses => ?_
    split
    · rename_i index
      refine .bind (.resolve _) fun {owner _} hgrows hgenuine howner => ?_
      refine (Yields.inquire (.starProjectedType owner.key)).mono fun _ htold _ => ?_
      -- The class that the constructor lies in is known by the container of the constructor.
      obtain ⟨hnode, hclass⟩ := NodeKind.found_of_declaration? hgenuine howner rfl
      have hcontainer := (SymbolRecord.Encloses.grows hencloses hgrows).container_eq_some hgenuine
        hclass hnode
      obtain ⟨types, htypes, rfl⟩ := Option.map_eq_some_iff.mp htold
      change (f.symbol.container.bind fun owner => world.table.classTypes[owner]?.bind _) = _
      rw [show f.symbol.container = some owner.key from hcontainer, Option.bind_some, htypes]
      rfl
    · refine (Yields.consult (f.blame_consult _)).with_plain fun hrun => ?_
      obtain ⟨_, _, _, hthrow⟩ := Action.bind_eq_ok hrun
      cases hthrow
  · rename_i hconstructor
    refine (Yields.of_sameSession fun s => ?_).with_plain fun _ h => absurd h hconstructor
    rw [Action.after, Query.request_apply]
    rcases world.session.oracle.returnType f.key s.oracle with ⟨_ | _, _⟩ <;> exact ⟨rfl, rfl⟩

theorem returnType_yields (hf : caches.Issued f.id f) :
    Yields world caches f.returnType (LazyField.functionReturnType.fact world.table f) := by
  refine .field .functionReturnType hf ?_
  refine .bind f.prepare_yields fun hgrows _ _ => ?_
  refine .bind (returnTypeKey_yields (hf.grows hgrows)) fun {type _} _ _ htype => ?_
  exact (Query.primaryReference_yields type f.id.node).mono fun _ h => ⟨type, htype, h⟩

end FunctionNode

namespace PropertyNode

variable {p : PropertyNode}

theorem getter_yields (hp : caches.Issued p.id p) :
    Yields world caches p.getter (LazyField.propertyGetter.fact world.table p) := by
  refine .field .propertyGetter hp ?_
  simp only [LazyField.fact]
  cases p.details.getter with
  | none => exact .pure .none
  | some key => exact (Query.getter_yields p.id key).map fun _ h => .some h

theorem setter_yields (hp : caches.Issued p.id p) :
    Yields world caches p.setter (LazyField.propertySetter.fact world.table p) := by
  refine .field .propertySetter hp ?_
  simp only [LazyField.fact]
  cases p.details.setter with
  | none => exact .pure .none
  | some key => exact (Query.setter_yields p.id key).map fun _ h => .some h

end PropertyNode

theorem SetterNode.parameter_yields {s : SetterNode} (hs : caches.Issued s.id s) :
    Yields world caches s.parameter (LazyField.setterParameter.fact world.table s) := by
  refine .field .setterParameter hs ?_
  cases hkey : s.parameterKey with
  | none => exact .throw _
  | some key =>
    exact (Query.valueParameter_yields key s.id.node).mono fun _ h => ⟨key, hkey, h⟩

/-! ## References and types -/

namespace TypeReference

variable {r : TypeReference}

theorem annotations_yields (hr : caches.Issued r.id r) :
    Yields world caches r.annotations (LazyField.referenceAnnotations.fact world.table r) := by
  refine .field .referenceAnnotations hr ?_
  refine .bind (.inquire (.type r.type)) fun {type _} _ _ htype => ?_
  exact (Query.wrapAnnotations_yields _ _).mono fun _ h => ⟨type, htype, h⟩

theorem modifiers_yields (hr : caches.Issued r.id r) : Yields world caches r.modifiers .any := by
  refine .field .referenceModifiers hr ?_
  refine .bind (.inquire (.type r.type)) fun {type _} _ _ _ => ?_
  split
  · exact .pure trivial
  · exact .pure trivial

theorem elementOf_yields (r : TypeReference) {type : TypeRecord}
    (htype : world.table.types[r.type.index]? = some type) :
    Yields world caches (r.elementOf type) (LazyField.referenceElement.fact world.table r) := by
  unfold elementOf
  cases hshape : type.shape
  case functional shape =>
    refine (Query.callableReference_yields r.type r).map fun {w _} _ hw => ?_
    exact ⟨_, .callable htype hshape, .some ⟨w, hw, rfl⟩⟩
  case dynamic =>
    refine (Query.dynamicReference_yields r).map fun {w _} _ hw => ?_
    exact ⟨_, .dynamic, .some ⟨w, hw, rfl⟩⟩
  case classType className arguments =>
    refine (Query.classifierReference_yields r.type r).map fun {w _} _ hw => ?_
    exact ⟨_, .classifier htype hshape, .some ⟨w, hw, rfl⟩⟩
  case flexible lower upper =>
    refine .bind (.inquire (.type lower)) fun {bound _} _ _ _ => ?_
    cases bound.shape
    case classType =>
      refine (Query.classifierReference_yields lower r).map fun {w _} _ hw => ?_
      exact ⟨_, .bound htype hshape, .some ⟨w, hw, rfl⟩⟩
    all_goals exact .throw _
  case intersection => exact .throw _
  case definitelyNotNull => exact .throw _
  all_goals exact .pure ⟨none, .none, .none⟩

theorem element_yields (hr : caches.Issued r.id r) :
    Yields world caches r.element (LazyField.referenceElement.fact world.table r) := by
  refine .field .referenceElement hr ?_
  split
  · exact .pure ⟨none, .none, .none⟩
  · refine .bind (.inquire (.type r.type)) fun {type _} _ _ htype => ?_
    exact r.elementOf_yields htype

theorem resolve_yields (r : TypeReference) : Yields world caches r.resolve .any := by
  refine .bind (.consult r.record_consult) fun {type _} _ _ _ => ?_
  split
  · exact .pure trivial
  · exact .pure trivial
  · refine .bind (.glance (.classifier r.type)) fun {classifier _} _ _ _ => ?_
    split
    · exact .pure trivial
    · exact (Query.resolvedType_yields _).map fun _ _ => trivial

end TypeReference

namespace ResolvedType

variable {t : ResolvedType}

theorem declaration_yields (ht : caches.Issued t.id t) :
    Yields world caches t.declaration (LazyField.typeDeclaration.fact world.table t) := by
  refine .field .typeDeclaration ht ?_
  refine .bind (.glance (.classifier t.key)) fun {classifier _} _ _ hclassifier => ?_
  split
  · exact (Query.declaration_yields _).mono fun _ h => ⟨_, hclassifier, h⟩
  · exact .throw _

theorem argumentShape_yields (t : ResolvedType) :
    Yields world caches t.argumentShape
      (.plain fun shape => world.table.argumentShape t.type.shape = some shape) := by
  unfold argumentShape
  cases t.type.shape
  case flexible lower _ =>
    exact (Yields.inquire (.type lower)).map fun _ htype => congrArg (Option.map _) htype
  case definitelyNotNull inner =>
    exact (Yields.inquire (.type inner)).map fun _ htype => congrArg (Option.map _) htype
  all_goals exact .pure rfl

theorem arguments_yields (ht : caches.Issued t.id t) :
    Yields world caches t.arguments (LazyField.typeArguments.fact world.table t) := by
  refine .field .typeArguments ht ?_
  refine .bind t.argumentShape_yields fun {shape _} _ _ hshape => ?_
  cases shape
  case classType => exact (Query.typeArguments_yields _ _).mono fun _ h => ⟨_, hshape, h⟩
  case functional => exact (Query.typeArguments_yields _ _).mono fun _ h => ⟨_, hshape, h⟩
  all_goals exact .pure ⟨_, hshape, .nil⟩

end ResolvedType

/-! ## Arguments of annotations -/

namespace AnnotationNode

variable {a : AnnotationNode}

theorem writtenArguments_yields (ha : caches.Issued a.id a) {position : Nat}
    {arguments : List ArgumentRecord} (harguments : a.record.arguments.drop position = arguments) :
    Yields world caches (a.writtenArguments position arguments)
      (.sourced a.id ((List.range' position arguments.length).map .written)) := by
  induction arguments generalizing caches position with
  | nil => exact .pure .nil
  | cons argument arguments ih =>
    obtain ⟨hargument, hrest⟩ := written_of_drop harguments
    refine .bind (Query.valueArgument_yields ha (.written hargument)) fun hgrows _ hfirst => ?_
    refine .bind (ih (ha.grows hgrows) hrest) fun hgrows _ hrest => ?_
    exact .pure (.cons (hgrows.lookup hfirst) hrest)

theorem soleConstructor_yields (a : AnnotationNode) :
    Yields world caches a.soleConstructor
      (.plain fun found => world.table.soleConstructor a.record = found) := by
  unfold soleConstructor SymbolTable.soleConstructor
  cases a.record.className with
  | none => exact .pure rfl
  | some className =>
    refine .bind (.glance (.classByName className)) fun {found _} _ _ hfound => ?_
    change world.table.classesByName[className]? = found at hfound
    simp only [Option.bind_eq_bind, Option.bind_some, hfound]
    cases found with
    | none => exact .pure rfl
    | some key =>
      refine .bind (.inquire (.symbol key)) fun {owner _} _ _ howner => ?_
      change world.table.symbols[key.index]? = some owner at howner
      simp only [Option.bind_some, howner]
      cases owner.details
      case classLike details =>
        dsimp only
        rcases details.constructors with _ | ⟨constructor, _ | ⟨_, _⟩⟩
        · exact .pure rfl
        · exact .map (.inquire (.symbol constructor)) fun _ htold => htold
        · exact .pure rfl
      all_goals exact .throw _

theorem parametersOf_yields (a : AnnotationNode) (constructor : SymbolRecord) :
    Yields world caches (a.parametersOf constructor)
      (.plain fun parameters => world.table.parametersOf constructor = some parameters) := by
  have hkeys (keys : List SymbolKey) : Yields world caches
      (keys.mapM fun key => do return (key, ← Query.request (·.symbol key)))
      (.plain fun parameters => (keys.mapM fun key =>
        world.table.symbols[key.index]?.map fun symbol => (key, symbol)) = some parameters) := by
    induction keys generalizing caches with
    | nil => exact .pure rfl
    | cons key keys ih =>
      rw [List.mapM_cons, bind_assoc]
      refine .bind (.inquire (.symbol key)) fun {symbol _} _ _ hsymbol => ?_
      refine ih.map fun {rest _} _ hrest => ?_
      change (List.mapM _ (key :: keys)) = some ((key, symbol) :: rest)
      rw [List.mapM_cons, show world.table.symbols[key.index]? = some symbol from hsymbol, hrest]
      rfl
  unfold parametersOf SymbolTable.parametersOf
  cases constructor.details
  case function details => exact hkeys details.valueParameters
  all_goals exact .throw _

/-- A default is looked for only in native syntax. -/
theorem defaultValue_yields (parameter : SymbolRecord) :
    Yields world caches (defaultValue parameter)
      (.plain fun value =>
        parameter.isForeign = false ∧ world.table.defaultConstant parameter = value) := by
  unfold defaultValue SymbolTable.defaultConstant SymbolRecord.isForeign
  cases parameter.source with
  | none => exact .pure ⟨rfl, rfl⟩
  | some source =>
    simp only [Option.bind_eq_bind, Option.bind_some, Option.any_some]
    cases source.form with
    | native =>
      cases source.defaultValue with
      | none => exact .pure ⟨rfl, rfl⟩
      | some expression => exact (Yields.glance (.evaluateConstant expression)).mono fun _ h => ⟨rfl, h⟩
    | interop | other => exact .throw _

theorem defaultsFor_yields (ha : caches.Issued a.id a) (covered : List String)
    {parameters : List (SymbolKey × SymbolRecord)}
    (hparameters : ∀ p ∈ parameters, world.table.symbols[p.1.index]? = some p.2) :
    Yields world caches (a.defaultsFor covered parameters)
      (.and (.plain fun _ => SymbolTable.leftUnread covered parameters = [])
        (.sourced a.id
          (((world.table.leftToDefaults covered parameters).map Prod.fst).map .default))) := by
  induction parameters generalizing caches with
  | nil => exact .pure ⟨rfl, .nil⟩
  | cons p parameters ih =>
    obtain ⟨key, parameter⟩ := p
    have hparameter := hparameters _ List.mem_cons_self
    have ih {caches : Caches} (ha : caches.Issued a.id a) :=
      ih ha fun p hp => hparameters p (List.mem_cons_of_mem _ hp)
    have hskip (h : (parameter.name.any (· ∉ covered) &&
        (world.table.defaultConstant parameter).isSome) = false) :
        world.table.leftToDefaults covered ((key, parameter) :: parameters) =
          world.table.leftToDefaults covered parameters :=
      List.filter_cons_of_neg (Bool.eq_false_iff.mp h)
    unfold defaultsFor
    cases hname : parameter.name with
    | none =>
      rw [hskip (by rw [hname]; rfl), SymbolTable.leftUnread_cons_of_read (by rw [hname]; rfl)]
      exact ih ha
    | some name =>
      dsimp only
      split
      · rename_i hcovered
        rw [hskip (by simp [hname, hcovered]),
          SymbolTable.leftUnread_cons_of_read (by simp [hname, hcovered])]
        exact ih ha
      · rename_i huncovered
        refine .bind (defaultValue_yields parameter) fun {value _} hgrows _ hvalue => ?_
        obtain ⟨hnative, hvalue⟩ := hvalue
        rw [SymbolTable.leftUnread_cons_of_read (by simp [hnative])]
        cases value with
        | none =>
          rw [hskip (by simp [hvalue])]
          exact ih (ha.grows hgrows)
        | some value =>
          have htaken : world.table.leftToDefaults covered ((key, parameter) :: parameters) =
              (key, parameter) :: world.table.leftToDefaults covered parameters :=
            List.filter_cons_of_pos (by simp [hname, huncovered, hvalue])
          rw [htaken]
          refine .bind (Query.valueArgument_yields (ha.grows hgrows)
            (.default hparameter hname hvalue)) fun hgrows' _ hfirst => ?_
          refine .bind (ih ((ha.grows hgrows).grows hgrows')) fun hgrows _ hrest => ?_
          exact .pure ⟨hrest.1, .cons (hgrows.lookup hfirst) hrest.2⟩

theorem arguments_yields (ha : caches.Issued a.id a) :
    Yields world caches a.arguments (.arguments world.table a) := by
  refine .field .annotationArguments ha ?_
  refine .bind (writtenArguments_yields ha rfl) fun hgrows _ hwritten => ?_
  have ha := ha.grows hgrows
  refine .bind a.soleConstructor_yields fun {constructor _} hgrows _ hconstructor => ?_
  have ha := ha.grows hgrows
  change world.table.soleConstructor a.record = constructor at hconstructor
  have hwritten := Fact.grows _ hwritten hgrows
  cases constructor with
  | none =>
    have hnone : world.table.annotationParameters a.record = none := by
      rw [SymbolTable.annotationParameters, hconstructor]
      rfl
    refine .pure ⟨by rw [SymbolTable.unread, hnone]; rfl, ?_⟩
    rw [SymbolTable.defaulted, hnone]
    simp only [Option.map_none, Option.getD_none, List.map_nil, List.append_nil]
    exact hwritten
  | some constructor =>
    refine .bind (a.parametersOf_yields constructor) fun {parameters _} hgrows _ hparameters => ?_
    change world.table.parametersOf constructor = some parameters at hparameters
    have hsome : world.table.annotationParameters a.record = some parameters := by
      rw [SymbolTable.annotationParameters, hconstructor, Option.bind_some, hparameters]
    have hwritten := Fact.grows _ hwritten hgrows
    obtain ⟨_, _, _, htold⟩ := SymbolTable.parametersOf_eq_some hparameters
    refine .bind (defaultsFor_yields (ha.grows hgrows) _ htold) fun hgrows _ hdefaults => ?_
    refine .pure ⟨by rw [SymbolTable.unread, hsome]; exact hdefaults.1, ?_⟩
    rw [SymbolTable.defaulted, hsome]
    exact Fact.sourced_append (Fact.grows _ hwritten hgrows) hdefaults.2

theorem annotationType_yields (ha : caches.Issued a.id a) :
    Yields world caches a.annotationType
      (.reference? a.id.node (world.table.annotationType a.record)) := by
  refine .field .annotationType ha ?_
  simp only [LazyField.fact, SymbolTable.annotationType]
  cases a.record.className with
  | none => exact .pure .none
  | some className =>
    refine .bind (.glance (.classByName className)) fun {key _} _ _ hkey => ?_
    change world.table.classesByName[className]? = key at hkey
    cases key with
    | none =>
      simp only [hkey, Option.bind_eq_bind, Option.bind_some, Option.bind_none]
      exact .pure .none
    | some key =>
      refine .bind (.inquire (.classType key)) fun {type _} _ _ htype => ?_
      obtain ⟨types, htypes, rfl⟩ := Option.map_eq_some_iff.mp htype
      simp only [hkey, Option.bind_eq_bind, Option.bind_some, htypes]
      exact (Query.primaryReference_yields _ _).map fun _ h => .some h

end AnnotationNode

/-! ## All fields -/

/-- What is read off an issued wrapper is what is known of the field. -/
theorem LazyField.read_yields (f : LazyField kind field) {w : kind.Wrapper}
    (hw : caches.Issued (kind.idOf w) w) :
    Yields world caches (f.read w) (f.fact world.table w) := by
  refine .of_genuine fun hgrows hgenuine => ?_
  have hw := hw.grows hgrows
  obtain ⟨key, hfound⟩ := hgenuine.exists_key hw
  cases f with
  | fileAnnotations => exact .field .fileAnnotations hw (Query.wrapAnnotations_yields _ _)
  | classParent => exact Declaration.parent_yields (d := .classLike w) hfound
  | classQualifiedName => exact Declaration.qualifiedName_yields (d := .classLike w) hfound
  | classAnnotations => exact Declaration.annotations_yields (d := .classLike w) hfound
  | classModifiers =>
    exact .field .classModifiers hw
      (.consult (.bind (ClassNode.category_consult w) fun _ => .pure _))
  | classTypeParameters =>
    exact .field .classTypeParameters hw (Query.typeParameters_yields _)
  | classSuperTypes => exact .field .classSuperTypes hw (Query.entries_yields _ _ _)
  | functionParent => exact Declaration.parent_yields (d := .function w) hfound
  | functionQualifiedName => exact Declaration.qualifiedName_yields (d := .function w) hfound
  | functionAnnotations => exact Declaration.annotations_yields (d := .function w) hfound
  | functionModifiers => exact .field .functionModifiers hw (.pure trivial)
  | functionDocString => exact FunctionNode.docString_yields hw
  | functionReceiverType => exact .field .functionReceiverType hw (Query.reference?_yields _ _)
  | functionReturnType => exact FunctionNode.returnType_yields hw
  | functionParameters =>
    exact .field .functionParameters hw (.mapM (fun key => Query.valueParameter_yields key _) _)
  | functionTypeParameters =>
    exact .field .functionTypeParameters hw (Query.typeParameters_yields _)
  | propertyParent => exact Declaration.parent_yields (d := .property w) hfound
  | propertyQualifiedName => exact Declaration.qualifiedName_yields (d := .property w) hfound
  | propertyAnnotations => exact Declaration.annotations_yields (d := .property w) hfound
  | propertyModifiers => exact .field .propertyModifiers hw (.pure rfl)
  | propertyType => exact .field .propertyType hw (Query.primaryReference_yields _ _)
  | propertyReceiverType => exact .field .propertyReceiverType hw (Query.reference?_yields _ _)
  | propertyGetter => exact PropertyNode.getter_yields hw
  | propertySetter => exact PropertyNode.setter_yields hw
  | propertyTypeParameters =>
    exact .field .propertyTypeParameters hw (Query.typeParameters_yields _)
  | typeParameterParent => exact Declaration.parent_yields (d := .typeParameter w) hfound
  | typeParameterQualifiedName =>
    exact Declaration.qualifiedName_yields (d := .typeParameter w) hfound
  | typeParameterAnnotations => exact Declaration.annotations_yields (d := .typeParameter w) hfound
  | typeParameterModifiers => exact .field .typeParameterModifiers hw (.pure trivial)
  | typeParameterBounds => exact .field .typeParameterBounds hw (Query.entries_yields _ _ _)
  | getterAnnotations =>
    exact .field .getterAnnotations hw (Accessor.annotations_compute_yields _ _ _ _)
  | getterModifiers => exact .field .getterModifiers hw (Accessor.modifiers_compute_yields _)
  | getterReturnType => exact .field .getterReturnType hw (Query.primaryReference_yields _ _)
  | setterAnnotations =>
    exact .field .setterAnnotations hw (Accessor.annotations_compute_yields _ _ _ _)
  | setterModifiers => exact .field .setterModifiers hw (Accessor.modifiers_compute_yields _)
  | setterParameter => exact SetterNode.parameter_yields hw
  | valueParameterAnnotations => exact ValueParameterNode.annotations_yields hw
  | valueParameterType => exact .field .valueParameterType hw (Query.primaryReference_yields _ _)
  | referenceAnnotations => exact TypeReference.annotations_yields hw
  | referenceModifiers => exact TypeReference.modifiers_yields hw
  | referenceElement => exact TypeReference.element_yields hw
  | classifierArguments => exact .field .classifierArguments hw (Query.typeArguments_yields _ _)
  | callableReceiverType => exact .field .callableReceiverType hw (Query.reference?_yields _ _)
  | callableParameters =>
    exact .field .callableParameters hw (.mapM (fun type => Query.primaryReference_yields type _) _)
  | callableReturnType => exact .field .callableReturnType hw (Query.primaryReference_yields _ _)
  | annotationArguments => exact AnnotationNode.arguments_yields hw
  | annotationType => exact AnnotationNode.annotationType_yields hw
  | typeDeclaration => exact ResolvedType.declaration_yields hw
  | typeArguments => exact ResolvedType.arguments_yields hw
  | typeAnnotations => exact .field .typeAnnotations hw (Query.wrapAnnotations_yields _ _)

end SymbolGraph
