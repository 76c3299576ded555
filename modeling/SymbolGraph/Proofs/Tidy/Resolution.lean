import SymbolGraph.Proofs.Oracle.BoundChain
import SymbolGraph.Proofs.Oracle.Closed
import SymbolGraph.Proofs.Tidy.Success

/-!
# Resolving references to types

A reference leads to the type itself, if the type is not in error and has a classifier. The declaration of
that type is asked for later, and by then the classifier is looked up again; both times it is what the
end of the chain of bounds refers to.
-/

namespace SymbolGraph

variable {world : World} {types : ReturnTypes} {s t : SessionState ReturnTypes} {record : TypeRecord}
  {symbol : SymbolKey}

/-- The type is an error itself. -/
def TypeShape.isErroneous : TypeShape → Bool
  | error | classError _ => true
  | _ => false

theorem Query.ask_classifier (type : TypeKey) :
    Query.ask (·.classifier type) world.session s = .ok (world.table.classifier type) s := rfl

namespace TypeReference

variable {r : TypeReference}

section

variable (hrecord : world.table.types[r.type.index]? = some record)
include hrecord

theorem record_eq_ok : r.record world.session s = .ok record s :=
  Inquiry.Told.request (i := .type r.type) hrecord s

theorem resolve_of_erroneous (hshape : record.shape.isErroneous = true) :
    r.resolve world.session s = .ok none s := by
  refine (Action.bind_of_ok (record_eq_ok hrecord) _).trans ?_
  cases hcase : record.shape <;> rw [hcase] at hshape <;> cases hshape <;> rfl

/-- A type that is not in error is looked for by its classifier. -/
theorem resolve_of_sound (hshape : record.shape.isErroneous = false) :
    r.resolve world.session s = (match world.table.classifier r.type with
      | none => pure none
      | some _ => do return some (← Query.resolvedType r.type) : Query ReturnTypes _) world.session s := by
  have hask : Query.ask (·.classifier r.type) world.session s =
      .ok (world.table.classifier r.type) s := Query.ask_classifier r.type
  refine (Action.bind_of_ok (record_eq_ok hrecord) _).trans ?_
  cases hcase : record.shape <;> rw [hcase] at hshape
  case error | classError => cases hshape
  all_goals exact Action.bind_of_ok hask _

/-- A reference to a type that has a classifier leads to the wrapper of the type. -/
theorem resolve_eq_type (hs : Tidy world.table s) (hshape : record.shape.isErroneous = false)
    (hfound : world.table.classifier r.type = some symbol) :
    ∃ T t, r.resolve world.session s = .ok (some T) t ∧ Tidy world.table t ∧
      t.caches.lookup .resolvedType r.type = some T ∧ T.key = r.type ∧ T.type = record := by
  obtain ⟨T, t, hrun⟩ : (Query.resolvedType r.type).Succeeds world.session s :=
    Query.resolvedType_succeeds hrecord
  obtain ⟨ht, -, hlookup⟩ := (Query.resolvedType_yields r.type).of_ok hs hrun
  refine ⟨T, t, ?_, ht, hlookup, ?_⟩
  · rw [resolve_of_sound hrecord hshape, hfound]
    exact Action.bind_of_ok hrun _
  · cases ht.genuine.made _ hlookup with | resolvedType id htype =>
    exact ⟨rfl, Option.some.inj (htype.symm.trans hrecord)⟩

/-- A reference leads to nothing if the type is in error or has no classifier, and only then. -/
theorem resolve_eq_none_iff (hs : Tidy world.table s) : (∃ t, r.resolve world.session s = .ok none t) ↔
    record.shape.isErroneous = true ∨ world.table.classifier r.type = none := by
  cases hshape : record.shape.isErroneous with
  | true => simpa using ⟨s, resolve_of_erroneous hrecord hshape⟩
  | false =>
    cases hfound : world.table.classifier r.type with
    | none => simpa using ⟨s, by rw [resolve_of_sound hrecord hshape, hfound]; rfl⟩
    | some symbol =>
      obtain ⟨T, t, hrun, -⟩ := resolve_eq_type hrecord hs hshape hfound
      simp [hrun]

end

end TypeReference

/-- A type whose classifier is a declaration has that declaration. -/
theorem ResolvedType.declaration_eq_ok (hs : Tidy world.table s) {T : ResolvedType}
    (hT : s.caches.Issued T.id T) (hclassifier : world.table.classifier T.key = some symbol)
    {kind : NodeKind} (hsort : world.table.sort? symbol = some kind) (hkind : kind.isDeclaration = true) :
    ∃ D t, T.declaration world.session s = .ok D t ∧ Tidy world.table t ∧ s.caches.Grows t.caches ∧
      D.FoundUnder t.caches symbol := by
  obtain ⟨target, htarget, rfl⟩ := SymbolTable.sort?_eq_some hsort
  obtain ⟨D, t, hrun⟩ : T.declaration.Succeeds world.session s := by
    have hask : Query.ask (·.classifier T.key) world.session s = .ok (some symbol) s := by
      rw [Query.ask_classifier, hclassifier]
    exact Query.memoize_succeeds (.bind_ok hask (Query.declaration_succeeds htarget hkind))
  obtain ⟨ht, hgrows, key, hkey, hD⟩ := (declaration_yields hT).of_ok hs hrun
  cases hkey.symm.trans hclassifier
  exact ⟨D, t, hrun, ht, hgrows, hD⟩

/-! ## Arguments of types -/

/-- References that nothing owns can always be wrapped. -/
theorem Query.typeArguments_succeeds (arguments : List (TypeArgument TypeKey)) :
    (Query.typeArguments none arguments).Succeeds world.session s := by
  induction arguments generalizing s with
  | nil => exact .pure _
  | cons argument arguments ih =>
    unfold typeArguments
    cases argument with
    | star =>
      simp only [pure_bind]
      exact ih.map _
    | projection variance type =>
      have hreference : (primaryReference type none).Succeeds world.session s :=
        typeReference_succeeds fun _ h => by cases h
      simp only [pure_bind]
      exact .bind hreference fun _ => ih.map _

theorem View.argument_types {caches : Caches} {table : SymbolTable} (hgenuine : caches.Genuine table)
    {owner : Option NodeId} {arguments : List (TypeArgument TypeReference)}
    {keys : List (TypeArgument TypeKey)}
    (h : (View.found (.node .typeReference)).argument.list.Shows caches arguments
      (keys.map (·.map (·.under owner)))) :
    arguments.map (·.map (·.type)) = keys := by
  induction keys generalizing arguments with
  | nil =>
    cases h
    rfl
  | cons key keys ih =>
    cases h with | @cons argument _ _ _ hfirst hrest =>
    rw [List.map_cons, ih hrest]
    congr 1
    cases argument <;> cases key
    case star.star => rfl
    case projection.projection =>
      obtain ⟨rfl, hfound⟩ := hfirst
      cases hgenuine.made (.node .typeReference) hfound
      rfl
    all_goals cases hfirst

namespace ResolvedType

theorem argumentShape_eq_ok {T : ResolvedType} {shape : TypeShape}
    (h : world.table.argumentShape T.type.shape = some shape) :
    T.argumentShape world.session s = .ok shape s := by
  have hrequest {key : TypeKey}
      (h : world.table.types[key.index]?.map TypeRecord.shape = some shape) :
      (do return (← Query.request (·.type key)).shape : Query ReturnTypes _) world.session s =
        .ok shape s := by
    obtain ⟨record, hrecord, rfl⟩ := Option.map_eq_some_iff.mp h
    exact Action.bind_of_ok (Inquiry.Told.request (i := .type key) hrecord s) _
  unfold argumentShape
  cases hcase : T.type.shape <;> rw [hcase] at h
  case flexible | definitelyNotNull => exact hrequest h
  all_goals
    cases h
    rfl

/-- A type has the arguments of the shape that they are taken from, in the order of the shape. -/
theorem arguments_eq_ok (hs : Tidy world.table s) {T : ResolvedType}
    (hT : s.caches.Issued T.id T) {shape : TypeShape}
    (hshape : world.table.argumentShape T.type.shape = some shape) :
    ∃ arguments t, T.arguments world.session s = .ok arguments t ∧
      arguments.map (·.map (·.type)) = shape.arguments := by
  obtain ⟨arguments, t, hrun⟩ : T.arguments.Succeeds world.session s := by
    refine Query.memoize_succeeds (.bind_ok (argumentShape_eq_ok hshape) ?_)
    split
    · exact Query.typeArguments_succeeds _
    · exact Query.typeArguments_succeeds _
    · exact .pure _
  obtain ⟨ht, -, shape', hknown, hshown⟩ := (arguments_yields hT).of_ok hs hrun
  cases hknown.symm.trans hshape
  exact ⟨arguments, t, hrun, View.argument_types ht.genuine hshown⟩

end ResolvedType

/-! ## Along a chain of bounds -/

/-- A type is not led to: it is in error, or the end of its chain is not told what it refers to and does
not refer to anything by itself. -/
def SymbolTable.Unresolvable (table : SymbolTable) (record : TypeRecord) (last : TypeKey)
    (lastRecord : TypeRecord) : Prop :=
  record.shape.isErroneous = true ∨ table.classifiers[last]? = none ∧ table.Unclassified lastRecord.shape

/-- From this state on the type has a declaration, which has this key. -/
def ResolvedType.Declares (T : ResolvedType) (session : Session ReturnTypes)
    (s : SessionState ReturnTypes) (symbol : SymbolKey) : Prop :=
  ∀ {t}, Reaches session s t → ∃ D u, T.declaration session t = .ok D u ∧ D.key = symbol

/-- If bounds come before the types that they bound, then every type in the table has a chain of bounds,
and the end of the chain tells whether a reference to the type leads to it and, if that is a declaration,
which declaration the type has from then on. -/
theorem resolve_along_bounds (hbounds : world.table.BoundsBefore) {r : TypeReference}
    (htype : r.type.index < world.table.types.size) (hs : Reaches world.session (.start types) s) :
    ∃ record last steps lastRecord, world.table.types[r.type.index]? = some record ∧
      world.table.BoundChain last steps r.type ∧ world.table.types[last.index]? = some lastRecord ∧
      ((∃ t, r.resolve world.session s = .ok none t) ↔
        world.table.Unresolvable record last lastRecord) ∧
      (¬ world.table.Unresolvable record last lastRecord →
        ∃ T t symbol, r.resolve world.session s = .ok (some T) t ∧
          t.caches.lookup .resolvedType r.type = some T ∧ T.key = r.type ∧ T.type = record ∧
          world.table.RefersTo last symbol ∧
          ∀ kind, world.table.sort? symbol = some kind → kind.isDeclaration = true →
            T.Declares world.session t symbol) := by
  have hs : Tidy world.table s := hs.tidy (.start _ _)
  obtain ⟨last, steps, hchain⟩ := SymbolTable.BoundChain.exists_of_boundsBefore hbounds htype
  obtain ⟨lastRecord, hlast, -⟩ := hchain.last_known
  obtain ⟨record, hrecord⟩ : ∃ record, world.table.types[r.type.index]? = some record :=
    ⟨_, Array.getElem?_eq_getElem htype⟩
  have hunresolvable : world.table.Unresolvable record last lastRecord ↔
      record.shape.isErroneous = true ∨ world.table.classifier r.type = none :=
    or_congr_right (hchain.classifier_eq_none_iff hlast).symm
  refine ⟨record, last, steps, lastRecord, hrecord, hchain, hlast, ?_, fun hresolvable => ?_⟩
  · exact (TypeReference.resolve_eq_none_iff hrecord hs).trans hunresolvable.symm
  · obtain ⟨hshape, hclassifier⟩ := not_or.mp (hresolvable ∘ hunresolvable.mpr)
    obtain ⟨symbol, hsymbol⟩ := Option.ne_none_iff_exists'.mp hclassifier
    obtain ⟨T, t, hrun, ht, hT, hkey, htype⟩ :=
      TypeReference.resolve_eq_type hrecord hs (Bool.eq_false_iff.mpr hshape) hsymbol
    refine ⟨T, t, symbol, hrun, hT, hkey, htype, hchain.classifier_eq_some_iff.mp hsymbol, ?_⟩
    intro kind hsort hkind u hu
    -- The classifier is asked for once more, and the table has not changed its mind.
    have hissued := ht.genuine.issued_of_lookup hT
    obtain ⟨D, v, hdeclaration, hv, -, hD⟩ := ResolvedType.declaration_eq_ok (hu.tidy ht)
      (hissued.grows hu.grows.caches) (hkey ▸ hsymbol) hsort hkind
    exact ⟨D, v, hdeclaration, (hD.genuine hv.genuine).key_eq⟩

/-- A table with a class type, a flexible type over it, and the non-null version of the flexible type. -/
def SymbolTable.nestedBounds : SymbolTable where
  symbols := #[{ name := some "Box", details := .classLike { typeParameters := [⟨1⟩] } },
    { name := some "T", details := .typeParameter {}, container := some ⟨0⟩ }]
  types := #[
    { shape := .classType "Box" [.star], rendered := "Box<*>" },
    { shape := .flexible ⟨0⟩ ⟨0⟩, rendered := "Box<*>!" },
    { shape := .definitelyNotNull ⟨1⟩, rendered := "Box<*>! & Any" }]
  classesByName := ({} : Std.TreeMap String SymbolKey).insert "Box" ⟨0⟩

theorem resolve_along_bounds_nestedBounds :
    let world : World := { table := .nestedBounds }
    let start : SessionState ReturnTypes := .start world.table.returnTypes
    let r : TypeReference := { id := ⟨0⟩, type := ⟨2⟩, parent := none, index := -1, origin := .synthetic }
    ∃ T t, r.resolve world.session start = .ok (some T) t ∧ T.key = ⟨2⟩ ∧
      T.Declares world.session t ⟨0⟩ := by
  intro world start r
  have hbounds : world.table.BoundsBefore := by decide +kernel
  have hs : Reaches world.session start start := .stay
  obtain ⟨record, last, steps, lastRecord, hrecord, hchain, hlast, -, hresolves⟩ :=
    resolve_along_bounds hbounds (show r.type.index < world.table.types.size by decide) hs
  obtain ⟨rfl, rfl⟩ := hchain.unique (.step rfl rfl rfl (.step rfl rfl rfl (.stop rfl (.inr rfl))))
  cases hrecord
  cases hlast
  have hresolvable : ¬ world.table.Unresolvable world.table.types[2] ⟨0⟩ world.table.types[0] := by
    rintro (hshape | ⟨-, hunclassified⟩)
    · cases hshape
    · cases hunclassified with | classType _ hname => exact absurd hname (by decide +kernel)
  obtain ⟨T, t, symbol, hrun, -, hkey, -, hrefers, hdeclares⟩ := hresolves hresolvable
  have hsymbol : world.table.classifier r.type = some ⟨0⟩ := by decide +kernel
  cases (hchain.classifier_eq_some_iff.mpr hrefers).symm.trans hsymbol
  exact ⟨T, t, hrun, hkey, hdeclares .classLike (by decide +kernel) rfl⟩

/-! ## Arguments along a chain -/

theorem TypeShape.arguments_of_bound {shape : TypeShape} {bound : TypeKey} (h : shape.bound? = some bound) :
    shape.arguments = [] := by
  cases shape <;> cases h <;> rfl

namespace SymbolTable

variable {table : SymbolTable} {type last : TypeKey} {steps : Nat} {lastRecord : TypeRecord}

theorem argumentShape_of_bound {shape : TypeShape} {bound : TypeKey} (h : shape.bound? = some bound) :
    table.argumentShape shape = table.types[bound.index]?.map TypeRecord.shape := by
  cases shape <;> cases h <;> rfl

/-- Arguments are looked for one step down a chain at most. -/
theorem BoundChain.argumentShape (h : table.BoundChain last steps type)
    (hrecord : table.types[type.index]? = some record)
    (hlast : table.types[last.index]? = some lastRecord) {className : String}
    (hname : lastRecord.shape.className? = some className) :
    ∃ shape, table.argumentShape record.shape = some shape ∧
      shape.arguments = if steps ≤ 1 then lastRecord.shape.arguments else [] := by
  cases h with
  | stop =>
    cases hrecord.symm.trans hlast
    refine ⟨record.shape, ?_, rfl⟩
    cases hshape : record.shape <;> rw [hshape] at hname <;> cases hname <;> rfl
  | step hrecord' _ hbound hrest =>
    cases hrecord.symm.trans hrecord'
    rw [argumentShape_of_bound hbound]
    -- One bound is followed. If there is another one below, its type has no arguments of its own.
    cases hrest with
    | stop => exact ⟨lastRecord.shape, by rw [hlast]; rfl, rfl⟩
    | step hnext _ hbound' => exact ⟨_, by rw [hnext]; rfl, TypeShape.arguments_of_bound hbound'⟩

end SymbolTable

/-- A type whose chain of bounds ends in an application of a class has the arguments of the application if
it is at most one step away, and otherwise none; but its declaration is the class in any case. -/
theorem arguments_along_bounds {T : ResolvedType} {last : TypeKey} {steps : Nat}
    {lastRecord : TypeRecord} {className : String} (hs : Reaches world.session (.start types) s)
    (hT : s.caches.Issued T.id T) (hchain : world.table.BoundChain last steps T.key)
    (hlast : world.table.types[last.index]? = some lastRecord)
    (hname : lastRecord.shape.className? = some className)
    (htold : world.table.classifiers[last]? = none) :
    (∃ arguments t, T.arguments world.session s = .ok arguments t ∧
        arguments.map (·.map (·.type)) = if steps ≤ 1 then lastRecord.shape.arguments else []) ∧
      ∀ {D t}, T.declaration world.session s = .ok D t →
        world.table.classesByName[className]? = some D.key := by
  have hs : Tidy world.table s := hs.tidy (.start _ _)
  constructor
  · have hrecord : world.table.types[T.key.index]? = some T.type := by
      obtain ⟨key, hfound⟩ := hs.genuine.exists_key hT
      cases hs.genuine.made .resolvedType hfound with | resolvedType id htype => exact htype
    obtain ⟨shape, hshape, hkeys⟩ := hchain.argumentShape hrecord hlast hname
    rw [← hkeys]
    exact ResolvedType.arguments_eq_ok hs hT hshape
  · intro D t hrun
    obtain ⟨ht, -, key, hkey, hD⟩ := (ResolvedType.declaration_yields hT).of_ok hs hrun
    rw [← hchain.classifier_eq_class hlast htold hname, hkey, (hD.genuine ht.genuine).key_eq]

theorem arguments_along_bounds_nestedBounds :
    let world : World := { table := .nestedBounds }
    let s := (Query.resolvedType ⟨1⟩ : Query ReturnTypes _).after world.session
      (.start world.table.returnTypes)
    ∃ (T : ResolvedType) (arguments : List (TypeArgument TypeReference)) (t : SessionState ReturnTypes),
      T.key = ⟨1⟩ ∧ T.arguments world.session s = .ok arguments t ∧
        arguments.map (·.map (·.type)) = [.star] := by
  intro world s
  have hs : Reaches world.session (.start world.table.returnTypes) s :=
    .operate (.wrap (.resolvedType ⟨1⟩)) .stay
  let T : ResolvedType := { id := ⟨0⟩, key := ⟨1⟩, type := SymbolTable.nestedBounds.types[1] }
  have hT : s.caches.Issued T.id T := rfl
  have hchain : world.table.BoundChain ⟨0⟩ 1 T.key := .step rfl rfl rfl (.stop rfl (.inr rfl))
  obtain ⟨⟨arguments, t, hrun, hkeys⟩, -⟩ := arguments_along_bounds hs hT hchain rfl rfl rfl
  exact ⟨T, arguments, t, rfl, hrun, hkeys⟩

/-- Two steps away from a class type there are no arguments any more, although the class is still found. -/
theorem arguments_lost_nestedBounds :
    let world : World := { table := .nestedBounds }
    let s := (Query.resolvedType ⟨2⟩ : Query ReturnTypes _).after world.session
      (.start world.table.returnTypes)
    world.table.BoundsBefore ∧ world.table.classifiers.isEmpty = true ∧
      world.table.BoundChain ⟨0⟩ 2 ⟨2⟩ ∧ (world.table.types[0]?.map (·.shape.arguments)) = some [.star] ∧
      ∃ T : ResolvedType, s.caches.resolvedTypes.get 0 = some T ∧ T.key = ⟨2⟩ ∧
        (∃ t, T.arguments world.session s = .ok [] t) ∧
        ∃ D t, T.declaration world.session s = .ok D t ∧ D.key = ⟨0⟩ := by
  intro world s
  have hs : Reaches world.session (.start world.table.returnTypes) s :=
    .operate (.wrap (.resolvedType ⟨2⟩)) .stay
  let T : ResolvedType := { id := ⟨0⟩, key := ⟨2⟩, type := SymbolTable.nestedBounds.types[2] }
  have hT : s.caches.Issued T.id T := rfl
  obtain ⟨t, harguments⟩ : ∃ t, T.arguments world.session s = .ok [] t :=
    Action.exists_ok_of_answer? (by decide +kernel)
  obtain ⟨D, u, hdeclaration, hu, -, hD⟩ :=
    ResolvedType.declaration_eq_ok (hs.tidy (.start _ _)) hT
      (show world.table.classifier T.key = some ⟨0⟩ by decide +kernel)
      (show world.table.sort? ⟨0⟩ = some .classLike by decide +kernel) rfl
  refine ⟨by decide +kernel, by decide +kernel, ?_, by decide +kernel, T, hT, rfl, ⟨t, harguments⟩, ?_⟩
  · exact .step rfl rfl rfl (.step rfl rfl rfl (.stop rfl (.inr rfl)))
  · exact ⟨D, u, hdeclaration, (hD.genuine hu.genuine).key_eq⟩

end SymbolGraph
