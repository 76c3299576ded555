import SymbolGraph.Proofs.Oracle.ClassTypes
import SymbolGraph.Proofs.Tidy.Frame
import SymbolGraph.Proofs.Tidy.Resolution

/-!
# Return types of constructors

A constructor returns the type of its class with stars. What the front end has on record as its return
type has no part in it, and neither has what was asked before.
-/

namespace SymbolGraph

variable {world : World} {d : Draft} {s t : SessionState ReturnTypes} {owner : SymbolKey}

/-! ## Types with stars in finished drafts -/

/-- A class type leads to the class of its name, unless it is told to lead elsewhere. -/
theorem SymbolTable.classifier_of_classType {table : SymbolTable} {type : TypeKey} {record : TypeRecord}
    {name : String} {arguments : List (TypeArgument TypeKey)}
    (hrecord : table.types[type.index]? = some record) (hshape : record.shape = .classType name arguments) :
    table.classifier type = table.classifiers[type]?.or table.classesByName[name]? := by
  rw [classifier, classifierWithin, hrecord, Option.bind_some, hshape]

/-- The type of a class with stars bears the name of the class and has a star for each type
parameter. -/
theorem Draft.finish_star {types : ClassTypes} (htypes : d.finish.classTypes[owner]? = some types) :
    ∃ symbol details record name, d.finish.symbols[owner.index]? = some symbol ∧
      symbol.details = .classLike details ∧ qualifiedClassName d.symbols owner = some name ∧
      d.finish.types[types.star.index]? = some record ∧
      record.shape = .classType name (List.replicate details.typeParameters.length .star) := by
  obtain ⟨blocks, hledger⟩ := d.exists_ledger
  obtain ⟨b, hmem, rfl⟩ := hledger.classTypes.mp htypes
  obtain ⟨-, hname, symbol, details, hsymbol, hdetails, hparameters⟩ := hledger.describes hmem
  obtain ⟨record, hrecord, hshape⟩ := hledger.shaped_star hmem
  refine ⟨symbol, details, record, b.name, hsymbol, hdetails, hname, replies_type.mp hrecord, ?_⟩
  rw [hshape, hparameters, List.map_const']

/-- By the name of a class a class is found, which is this one if there is no other of the name. -/
theorem Draft.exists_named {name : String} (hname : qualifiedClassName d.symbols owner = some name) :
    ∃ found, d.finish.classesByName[name]? = some found ∧
      ((∀ other, qualifiedClassName d.symbols other = qualifiedClassName d.symbols owner →
        other = owner) → found = owner) := by
  obtain ⟨found, hfound, _⟩ := d.exists_classesByName hname
  refine ⟨found, hfound, fun hunique => hunique found ?_⟩
  rw [hname, d.qualifiedClassName_of_classesByName hfound]

/-! ## Stars as arguments -/

/-- What is a star under any name is a star. -/
theorem TypeArgument.eq_stars_of_map {α β : Type} {f : α → β} {count : Nat}
    {arguments : List (TypeArgument α)} (h : arguments.map (·.map f) = List.replicate count .star) :
    arguments = List.replicate count .star := by
  rw [List.eq_replicate_iff] at h ⊢
  refine ⟨by simpa using h.1, fun argument hargument => ?_⟩
  have hstar := h.2 _ (List.mem_map_of_mem hargument)
  cases argument <;> cases hstar
  rfl

namespace ResolvedType

/-- A class type with nothing but stars is found to have them as arguments. -/
theorem arguments_eq_stars (hs : Tidy world.table s) {T : ResolvedType} (hT : s.caches.Issued T.id T)
    {name : String} {count : Nat} (hshape : T.type.shape = .classType name (List.replicate count .star)) :
    ∃ t, T.arguments world.session s = .ok (List.replicate count .star) t := by
  have hargumentShape : world.table.argumentShape T.type.shape = some T.type.shape := by
    rw [hshape]
    rfl
  obtain ⟨arguments, t, hrun, hkeys⟩ := arguments_eq_ok hs hT hargumentShape
  rw [hshape] at hkeys
  exact ⟨t, TypeArgument.eq_stars_of_map hkeys ▸ hrun⟩

/-- The type is that of the class with stars: it has a star for each type parameter. -/
structure IsStarTypeOf (world : World) (s : SessionState ReturnTypes) (T : ResolvedType)
    (c : ClassNode) : Prop where
  projected : ∃ t, c.starProjectedType world.session s = .ok T t
  arguments : ∃ t, T.arguments world.session s =
    .ok (List.replicate c.details.typeParameters.length .star) t
  isStarProjected : ∃ projected t, T.isStarProjected world.session s = .ok projected t ∧
    (projected = true ↔ c.details.typeParameters ≠ [])

theorem isStarProjected_of_arguments {T : ResolvedType} {count : Nat}
    (h : T.arguments world.session s = .ok (List.replicate count .star) t) :
    T.isStarProjected world.session s = .ok (decide (0 < count)) t := by
  refine (Action.bind_of_ok h _).trans ?_
  cases count with
  | zero => rfl
  | succ count =>
    have hstars : (List.replicate (count + 1) (.star : TypeArgument TypeReference)).all
        TypeArgument.isStar = true := by
      simp [TypeArgument.isStar]
    rw [hstars]
    rfl

end ResolvedType

/-! ## Constructors -/

namespace FunctionNode

variable {f : FunctionNode}

variable {constructor : SymbolKey} (hs : Tidy world.table s)
  (hf : s.caches.lookup (.node .function) constructor = some f)
  (hconstructor : f.details.isConstructor = true) (hcontainer : f.symbol.container = some owner)
  {types : ClassTypes} (htypes : world.table.classTypes[owner]? = some types)
include hs hf hconstructor hcontainer htypes

theorem returnTypeKey_succeeds {symbol : SymbolRecord} {details : ClassDetails}
    (hsymbol : world.table.symbols[owner.index]? = some symbol)
    (hdetails : symbol.details = .classLike details) :
    f.returnTypeKey.Succeeds world.session s := by
  have hd : (Declaration.function f).FoundUnder s.caches constructor := hf
  have hsort : symbol.details.sort = .classLike := by rw [hdetails]; rfl
  have hparent : (Declaration.function f).parent.Succeeds world.session s := by
    refine Query.memoize_succeeds (SymbolRecord.containerNode_succeeds ?_ fun outerKey houterKey => ?_)
    · intro hnone
      cases hcontainer.symm.trans hnone
    · cases hcontainer.symm.trans houterKey
      exact ⟨symbol, hsymbol, .declaration (by rw [hsort]; rfl)⟩
  rw [returnTypeKey, if_pos hconstructor]
  refine hparent.bind fun {parent t} hrun => ?_
  obtain ⟨ht, -, hencloses⟩ := (Declaration.parent_yields hd).of_ok hs hrun
  have hclass := (SymbolTable.enclosingClass?_of_container hcontainer hsymbol).trans (if_pos hsort)
  obtain ⟨c, rfl, hc, -⟩ | ⟨-, hnone⟩ := SymbolRecord.Encloses.enclosingClass? hencloses ht.genuine
  · obtain ⟨hnode, hfound⟩ := NodeKind.found_of_declaration? ht.genuine hc rfl
    have hkey := SymbolRecord.Encloses.container_eq_some hencloses ht.genuine hfound hnode
    cases hkey.symm.trans hcontainer
    refine .bind_ok (Query.resolve_of_get world.session hc) ?_
    have htold : Inquiry.Told world.table (.starProjectedType c.key) types.star :=
      congrArg (Option.map ClassTypes.star) htypes
    exact ⟨_, _, htold.request t⟩
  · cases hclass.symm.trans hnone

/-- A constructor of a class is found to return the type of the class with stars. -/
theorem returnType_eq_star {symbol : SymbolRecord} {details : ClassDetails}
    (hsymbol : world.table.symbols[owner.index]? = some symbol)
    (hdetails : symbol.details = .classLike details) :
    ∃ r t, f.returnType world.session s = .ok r t ∧ Tidy world.table t ∧ r.type = types.star := by
  have hd : (Declaration.function f).FoundUnder s.caches constructor := hf
  have hissued := hs.genuine.issued_of_lookup hf
  obtain ⟨r, t, hrun⟩ : f.returnType.Succeeds world.session s := by
    have hshown : world.table.symbols[f.key.index]? = some f.symbol := by
      have hkey : f.key = constructor := (hd.genuine hs.genuine).key_eq
      rw [hkey]
      exact (hd.genuine hs.genuine).symbol
    refine Query.memoize_succeeds (.bind ⟨_, _, prepare_of_member hshown hcontainer⟩
      fun {_ u} hprepared => ?_)
    have hsame := Action.after_of_ok hprepared ▸ f.prepare_sameSession world.session s
    have hu := hs.of_sameSession hsame
    have hfu : u.caches.lookup (.node .function) constructor = some f := hsame.caches ▸ hf
    refine .bind (returnTypeKey_succeeds hu hfu hconstructor hcontainer htypes hsymbol hdetails)
      fun {type v} hkey => ?_
    have hgrows := ((returnTypeKey_yields (hu.genuine.issued_of_lookup hfu)).of_ok hu hkey).2.1
    refine Query.typeReference_succeeds fun node hnode => ?_
    cases hnode
    exact ⟨f, (hu.genuine.issued_of_lookup hfu).grows hgrows⟩
  obtain ⟨ht, -, type, htype, hr⟩ := (returnType_yields hissued).of_ok hs hrun
  have hconstructed : world.table.constructedType f.symbol = some types.star := by
    simp only [SymbolTable.constructedType, hcontainer, htypes, Option.bind_eq_bind, Option.bind_some]
    rfl
  cases (htype hconstructor).symm.trans hconstructed
  cases ht.genuine.made _ hr
  exact ⟨_, t, hrun, ht, rfl⟩

end FunctionNode

/-! ## What the return type leads to -/

/-- A type that leads to a class is found to have the wrapper of the class as its declaration. -/
theorem ResolvedType.declaration_eq_class (hs : Tidy world.table s) {T : ResolvedType}
    (hT : s.caches.Issued T.id T) (hclassifier : world.table.classifier T.key = some owner)
    {c : ClassNode} (hc : s.caches.lookup (.node .classLike) owner = some c) :
    ∃ t, T.declaration world.session s = .ok (.classLike c) t := by
  have hfound : (Declaration.classLike c).FoundUnder s.caches owner := hc
  have hshown := hfound.genuine hs.genuine
  have hsort : world.table.sort? owner = some .classLike := by
    rw [SymbolTable.sort?, hshown.symbol, Option.map_some, hshown.sort]
    rfl
  obtain ⟨D, t, hrun, ht, hgrows, hD⟩ := declaration_eq_ok hs hT hclassifier hsort rfl
  cases Declaration.FoundUnder.unique hD (hfound.grows hgrows) ht.genuine
  exact ⟨t, hrun⟩

/-- The type that was found by the key of the type of a class with stars is the type of the wrapper of the
class with stars. -/
theorem ResolvedType.isStarTypeOf (hs : Tidy world.table s) {T : ResolvedType} {type : TypeKey}
    (hT : s.caches.lookup .resolvedType type = some T) {name : String} {details : ClassDetails}
    (hshape : T.type.shape = .classType name (List.replicate details.typeParameters.length .star))
    {c : ClassNode} (hc : c.key = owner ∧ c.details = details) {types : ClassTypes}
    (htypes : world.table.classTypes[owner]? = some types) (hstar : types.star = type) :
    T.IsStarTypeOf world s c := by
  obtain ⟨rfl, rfl⟩ := hc
  subst hstar
  obtain ⟨t, harguments⟩ := arguments_eq_stars hs (hs.genuine.issued_of_lookup hT) hshape
  refine ⟨⟨s, ?_⟩, ⟨t, harguments⟩, _, t, isStarProjected_of_arguments harguments, ?_⟩
  · have htold : Inquiry.Told world.table (.starProjectedType c.key) types.star :=
      congrArg (Option.map ClassTypes.star) htypes
    refine (Action.bind_of_ok (htold.request s) _).trans ?_
    exact (Query.resolvedType_wraps _).of_lookup _ s hT
  · rw [decide_eq_true_iff, List.length_pos_iff]

/-- From this state on the reference leads to a type, which is the type of the class with stars. Unless
another class has the same name, or the type is told to lead elsewhere, its declaration is the wrapper of
the class. -/
def TypeReference.LeadsToStarType (world : World) (d : Draft) (s : SessionState ReturnTypes)
    (r : TypeReference) (owner : SymbolKey) : Prop :=
  ∀ {t}, Reaches world.session s t → ∃ T u, r.resolve world.session t = .ok (some T) u ∧
    ∀ {v}, Reaches world.session u v → ∃ c w, Query.classLike owner world.session v = .ok c w ∧
      c.key = owner ∧ T.IsStarTypeOf world w c ∧
      ((∀ other, Draft.qualifiedClassName d.symbols other = Draft.qualifiedClassName d.symbols owner →
          other = owner) →
        world.table.classifiers[T.key]? = none →
        ∃ x, T.declaration world.session w = .ok (.classLike c) x)

theorem TypeReference.leadsToStarType (htable : world.table = d.finish) {types : ClassTypes}
    (htypes : world.table.classTypes[owner]? = some types) (hs : Tidy world.table s) {r : TypeReference}
    (hr : r.type = types.star) : r.LeadsToStarType world d s owner := by
  obtain ⟨symbol, details, record, name, hsymbol, hdetails, hname, hrecord, hshape⟩ :=
    Draft.finish_star (htable ▸ htypes)
  obtain ⟨found, hfound, hunique⟩ := Draft.exists_named hname
  rw [← htable] at hsymbol hrecord hfound
  rw [← hr] at hrecord
  have hclassifier := SymbolTable.classifier_of_classType hrecord hshape
  rw [hfound] at hclassifier
  obtain ⟨target, htarget⟩ : ∃ target, world.table.classifier r.type = some target := by
    rw [hclassifier]
    cases world.table.classifiers[r.type]? with
    | none => exact ⟨found, rfl⟩
    | some target => exact ⟨target, rfl⟩
  intro t ht
  obtain ⟨T, u, hresolve, hu, hT, hkey, htype⟩ := resolve_eq_type hrecord (ht.tidy hs) (by rw [hshape]; rfl) htarget
  refine ⟨T, u, hresolve, fun {v} hv => ?_⟩
  obtain ⟨c, w, hclass⟩ : (Query.classLike owner).Succeeds world.session v :=
    Query.classLike_succeeds hsymbol hdetails
  obtain ⟨hw, hgrows, hc⟩ := (Query.classLike_yields owner).of_ok (hv.tidy hu) hclass
  have hmade : c.key = owner ∧ c.details = details := by
    cases hw.genuine.made _ hc with | classLike id hsymbol' hdetails' =>
    cases hsymbol.symm.trans hsymbol'
    cases hdetails.symm.trans hdetails'
    exact ⟨rfl, rfl⟩
  have hTw := hgrows.lookup (hv.grows.caches.lookup hT)
  refine ⟨c, w, hclass, hmade.1, ?_, fun hothers hoverride => ?_⟩
  · exact ResolvedType.isStarTypeOf hw hTw (htype ▸ hshape) hmade htypes hr.symm
  · refine ResolvedType.declaration_eq_class hw (hw.genuine.issued_of_lookup hTw) ?_ hc
    rw [hkey] at hoverride
    rw [hkey, hclassifier, hoverride, hunique hothers]
    rfl

/-- A constructor whose container is a class that has a type with stars returns that type, whatever is
recorded as its return type and whatever was asked before. The reference leads to the type that the
wrapper of the class is projected to. -/
theorem constructor_returnType (htable : world.table = d.finish) {constructor : SymbolKey}
    {symbol : SymbolRecord} {details : FunctionDetails}
    (hsymbol : world.table.symbols[constructor.index]? = some symbol)
    (hdetails : symbol.details = .function details) (hconstructor : details.isConstructor = true)
    (hcontainer : symbol.container = some owner) {types : ClassTypes}
    (htypes : world.table.classTypes[owner]? = some types) {recorded : ReturnTypes}
    (hs : Reaches world.session (.start recorded) s) :
    ∃ f t, Query.function constructor world.session s = .ok f t ∧ f.key = constructor ∧
      ∀ {u}, Reaches world.session t u → ∃ r v, f.returnType world.session u = .ok r v ∧
        r.type = types.star ∧ r.LeadsToStarType world d v owner := by
  have hx : Tidy world.table s := hs.tidy (.start world.table recorded)
  obtain ⟨classSymbol, classDetails, -, -, hclassSymbol, hclassDetails, -⟩ :=
    Draft.finish_star (htable ▸ htypes)
  rw [← htable] at hclassSymbol
  obtain ⟨f, t, hrun⟩ : (Query.function constructor).Succeeds world.session s :=
    Query.function_succeeds hsymbol hdetails
  obtain ⟨ht, -, hf⟩ := (Query.function_yields constructor).of_ok hx hrun
  obtain ⟨hkey, rfl, rfl⟩ := ht.genuine.function_shown hf hsymbol hdetails
  refine ⟨f, t, hrun, hkey, fun hu => ?_⟩
  obtain ⟨r, v, hreturn, hv, hr⟩ := FunctionNode.returnType_eq_star (hu.tidy ht)
    (hu.grows.caches.lookup hf) hconstructor hcontainer htypes hclassSymbol hclassDetails
  exact ⟨r, v, hreturn, hr, TypeReference.leadsToStarType htable htypes hv hr⟩

/-- A generic class whose constructor is on record to return something else, now and once that is
settled. -/
def Draft.settledConstructor : Draft :=
  Draft.deferReturnType {
    symbols := #[
      { name := some "Box", details := .classLike { typeParameters := [⟨1⟩], constructors := [⟨2⟩] } },
      { name := some "T", details := .typeParameter {}, container := some ⟨0⟩ },
      { name := none, details := .function { isConstructor := true, isInteropMethod := true }
        provenance := .interopSource, container := some ⟨0⟩ }]
    types := #[.ofClass "Raw", .ofClass "Settled"] } ⟨2⟩ ⟨0⟩ ⟨1⟩

theorem constructor_returnType_settledConstructor :
    let world : World := { table := Draft.settledConstructor.finish }
    ∃ f t, Query.function ⟨2⟩ world.session (.start world.table.returnTypes) = .ok f t ∧
      ∃ r u, f.returnType world.session t = .ok r u ∧ r.type = ⟨4⟩ ∧
        ∃ T v, r.resolve world.session u = .ok (some T) v ∧
          ∃ c w, Query.classLike ⟨0⟩ world.session v = .ok c w ∧ T.IsStarTypeOf world w c ∧
            ∃ x, T.declaration world.session w = .ok (.classLike c) x := by
  intro world
  have htypes : world.table.classTypes[(⟨0⟩ : SymbolKey)]? = some ⟨⟨3⟩, ⟨4⟩⟩ := by decide +kernel
  have hunique (other : SymbolKey)
      (h : Draft.qualifiedClassName Draft.settledConstructor.symbols other =
        Draft.qualifiedClassName Draft.settledConstructor.symbols ⟨0⟩) : other = ⟨0⟩ := by
    have hbox : Draft.qualifiedClassName Draft.settledConstructor.symbols ⟨0⟩ = some "Box" := by
      decide +kernel
    obtain ⟨_, _, hpath, _⟩ := Draft.path_of_qualifiedClassName (h.trans hbox)
    obtain ⟨_, _, hsymbol, hdetails⟩ := hpath.exists_classLike
    obtain ⟨_ | _ | _ | _⟩ := other <;> cases hsymbol <;> cases hdetails
    rfl
  have htable : world.table = Draft.settledConstructor.finish := rfl
  have hsymbol : world.table.symbols[(⟨2⟩ : SymbolKey).index]? = some _ := rfl
  have hstart : Reaches world.session (.start world.table.returnTypes) _ := .stay
  obtain ⟨f, t, hf, -, hreturns⟩ :=
    constructor_returnType htable hsymbol rfl rfl rfl htypes hstart
  obtain ⟨r, u, hreturn, hr, hleads⟩ := hreturns .stay
  obtain ⟨T, v, hresolve, hstar⟩ := hleads .stay
  obtain ⟨c, w, hc, -, hT, hdeclaration⟩ := hstar .stay
  exact ⟨f, t, hf, r, u, hreturn, hr, T, v, hresolve, c, w, hc, hT, hdeclaration hunique rfl⟩

end SymbolGraph
