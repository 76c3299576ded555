import SymbolGraph.Proofs.Tidy.Yields

/-!
# Requests for wrappers in tidy sessions

Every request for a wrapper yields the wrapper under its key, and what is wrapped newly holds what
the table says.
-/

namespace SymbolGraph

variable {world : World} {caches : Caches}

namespace Query

/-! ## Files and symbols -/

theorem file_yields (key : FileKey) :
    Yields world caches (file key) ((View.found (.node .file)).of key) := by
  refine .wrap (by decide) (.bind (.inquire (.file key)) fun _ _ hfile => ?_)
  exact .pure fun id => ⟨rfl, .file id hfile⟩

theorem classLike_yields (key : SymbolKey) :
    Yields world caches (classLike key) ((View.found (.node .classLike)).of key) := by
  refine .wrap (by decide) (.bind (.inquire (.symbol key)) fun {symbol} _ _ _ hsymbol => ?_)
  cases hdetails : symbol.details
  case classLike details => exact .pure fun id => ⟨rfl, .classLike id hsymbol hdetails⟩
  all_goals exact .throw _

theorem function_yields (key : SymbolKey) :
    Yields world caches (function key) ((View.found (.node .function)).of key) := by
  refine .wrap (by decide) (.bind (.inquire (.symbol key)) fun {symbol} _ _ _ hsymbol => ?_)
  cases hdetails : symbol.details
  case function details => exact .pure fun id => ⟨rfl, .function id hsymbol hdetails⟩
  all_goals exact .throw _

theorem property_yields (key : SymbolKey) :
    Yields world caches (property key) ((View.found (.node .property)).of key) := by
  refine .wrap (by decide) (.bind (.inquire (.symbol key)) fun {symbol} _ _ _ hsymbol => ?_)
  cases hdetails : symbol.details
  case property details => exact .pure fun id => ⟨rfl, .property id hsymbol hdetails⟩
  all_goals exact .throw _

theorem typeParameter_yields (key : SymbolKey) :
    Yields world caches (typeParameter key) ((View.found (.node .typeParameter)).of key) := by
  refine .wrap (by decide) (.bind (.inquire (.symbol key)) fun {symbol} _ _ _ hsymbol => ?_)
  cases hdetails : symbol.details
  case typeParameter details => exact .pure fun id => ⟨rfl, .typeParameter id hsymbol hdetails⟩
  all_goals exact .throw _

theorem getter_yields (receiver : PropertyId) (key : SymbolKey) :
    Yields world caches (getter receiver key)
      ((View.found (.node .getter)).of { receiver, symbol := key }) := by
  refine .wrap (by decide) (.bind (.inquire (.symbol key)) fun {symbol} _ _ _ hsymbol => ?_)
  cases hdetails : symbol.details
  case getter returnType => exact .pure fun id => ⟨rfl, .getter id hsymbol hdetails⟩
  all_goals exact .throw _

theorem setter_yields (receiver : PropertyId) (key : SymbolKey) :
    Yields world caches (setter receiver key)
      ((View.found (.node .setter)).of { receiver, symbol := key }) := by
  refine .wrap (by decide) (.bind (.inquire (.symbol key)) fun {symbol} _ _ _ hsymbol => ?_)
  cases hdetails : symbol.details
  case setter parameter => exact .pure fun id => ⟨rfl, .setter id hsymbol hdetails⟩
  all_goals exact .throw _

theorem valueParameter_yields (key : SymbolKey) (parent : NodeId) :
    Yields world caches (valueParameter key parent)
      ((View.found (.node .valueParameter)).of { symbol := key, parent }) := by
  refine .wrap (by decide) (.bind (.inquire (.symbol key)) fun {symbol} _ _ _ hsymbol => ?_)
  cases hdetails : symbol.details
  case valueParameter details =>
    exact .pure fun id => ⟨rfl, .valueParameter parent id hsymbol hdetails⟩
  all_goals exact .throw _

/-- A declaration is wrapped as what the table says it is. -/
theorem declaration_yields (key : SymbolKey) :
    Yields world caches (declaration key) (.declared key) := by
  refine .bind (.inquire (.symbol key)) fun {symbol} _ _ _ _ => ?_
  cases symbol.details
  case classLike => exact (classLike_yields key).map fun _ => id
  case function => exact (function_yields key).map fun _ => id
  case property => exact (property_yields key).map fun _ => id
  case typeParameter => exact (typeParameter_yields key).map fun _ => id
  all_goals exact .throw _

/-! ## Types, references and annotations -/

theorem typeReference_yields (type : TypeKey) (parent : Option NodeId) (index : Int) :
    Yields world caches (typeReference type parent index) (.reference { type, parent, index }) := by
  refine .wrap (by decide) ?_
  cases parent with
  | none => exact .pure fun id => ⟨rfl, .typeReference type none index .synthetic id⟩
  | some node =>
    refine .bind (.consult (origin_consult node)) fun {origin} _ _ _ _ => ?_
    exact .pure fun id => ⟨rfl, .typeReference type (some node) index origin id⟩

theorem primaryReference_yields (type : TypeKey) (owner : Option NodeId) :
    Yields world caches (primaryReference type owner) (.reference (type.under owner)) :=
  typeReference_yields type owner (-1)

theorem resolvedType_yields (key : TypeKey) :
    Yields world caches (resolvedType key) ((View.found .resolvedType).of key) := by
  refine .wrap (by decide) (.bind (.inquire (.type key)) fun _ _ htype => ?_)
  exact .pure fun id => ⟨rfl, .resolvedType id htype⟩

theorem annotationUse_yields (key : AnnotationKey) (parent : Option NodeId) :
    Yields world caches (annotationUse key parent)
      ((View.found (.node .annotationUse)).of { key, parent }) := by
  refine .wrap (by decide) (.bind (.inquire (.annotationUse key)) fun _ _ hrecord => ?_)
  exact .pure fun id => ⟨rfl, .annotationUse parent id hrecord⟩

/-- An argument is created from what its annotation has it say. -/
theorem valueArgument_yields {owner : AnnotationId} {a : AnnotationNode} (ha : caches.Issued owner a)
    {source : ArgumentSource} {name : Option String} {value : AnnotationValue} {origin : Origin}
    {position : Option Position} (hargues : a.Argues world.table source name value origin position) :
    Yields world caches (valueArgument owner source name value origin position)
      ((View.found (.node .valueArgument)).of { owner, source }) := by
  let build (id : ValueArgumentId) : ArgumentNode := { id, owner, name, value, origin, position }
  have hplan : Yields world caches (pure build)
      (.and (.given owner a) (.plain (· = build))) := .pure ⟨ha, rfl⟩
  refine Sustains.wrap hplan.sustains (fun hs hbuild => ?_) fun _ hw => hw
  obtain ⟨ha, rfl⟩ := hbuild
  exact hs.create (fun _ => rfl)
    (fun id => .valueArgument owner source name value origin position id) fun _ => ⟨a, ha, hargues⟩

theorem classifierReference_yields (key : TypeKey) (owner : TypeReference) :
    Yields world caches (classifierReference key owner)
      ((View.found (.node .classifierReference)).of { type := key, owner := owner.id }) := by
  refine .wrap (by decide) (.bind (.inquire (.type key)) fun {type} _ _ _ htype => ?_)
  cases hshape : type.shape
  case classType =>
    exact .pure fun id => ⟨rfl, .classifierReference owner.id owner.origin id htype hshape⟩
  all_goals exact .throw _

theorem callableReference_yields (key : TypeKey) (owner : TypeReference) :
    Yields world caches (callableReference key owner)
      ((View.found (.node .callableReference)).of { type := key, owner := owner.id }) := by
  refine .wrap (by decide) (.bind (.inquire (.type key)) fun {type} _ _ _ htype => ?_)
  cases hshape : type.shape
  case functional =>
    exact .pure fun id => ⟨rfl, .callableReference owner.id owner.origin id htype hshape⟩
  all_goals exact .throw _

theorem dynamicReference_yields (owner : TypeReference) :
    Yields world caches (dynamicReference owner)
      ((View.found (.node .dynamicReference)).of owner.id) :=
  .wrap (by decide) (.pure fun id => ⟨rfl, .dynamicReference owner.id owner.origin id⟩)

/-! ## Lists of wrappers -/

theorem entries_yields (owner : NodeId) (index : Nat) (types : List TypeKey) :
    Yields world caches (entries owner index types)
      (.references (TypeKey.entries owner index types)) := by
  induction types generalizing caches index with
  | nil => exact .pure .nil
  | cons type types ih =>
    refine .bind (typeReference_yields type owner index) fun _ _ hfirst => ?_
    refine .bind (ih (index + 1)) fun hgrows _ hrest => ?_
    exact .pure (.cons (View.grows _ hfirst hgrows) hrest)

theorem typeParameters_yields (keys : List SymbolKey) :
    Yields world caches (keys.mapM typeParameter) (.typeParameters keys) := by
  have h : Yields world caches (keys.mapM typeParameter)
      ((View.found (.node .typeParameter)).list.of (keys.map id)) :=
    .mapM typeParameter_yields keys
  rw [List.map_id] at h
  exact h

theorem wrapAnnotations_yields (bearer : Option NodeId) (keys : List AnnotationKey) :
    Yields world caches (wrapAnnotations bearer keys) (.annotations bearer keys) :=
  .mapM (fun key => annotationUse_yields key bearer) keys

/-- Only the annotations that are wanted are wrapped, but the targets of all are looked up. -/
theorem selectAnnotations_yields (bearer : NodeId) (wanted : Option UseSiteTarget → Bool)
    (keys : List AnnotationKey) :
    Yields world caches (selectAnnotations bearer wanted keys)
      (.selected world.table bearer wanted keys) := by
  induction keys generalizing caches with
  | nil => exact .pure ⟨List.forall_mem_nil _, .nil⟩
  | cons key keys ih =>
    refine .bind (.inquire (.annotationUse key)) fun {record} _ _ _ hrecord => ?_
    have hrecord : world.table.annotations[key.index]? = some record := hrecord
    have hknown : key.index < world.table.annotations.size :=
      (Array.getElem?_eq_some_iff.mp hrecord).1
    have hany : world.table.annotations[key.index]?.any (fun r => wanted r.target) =
        wanted record.target := by
      rw [hrecord, Option.any_some]
    unfold Fact.selected
    split
    · rename_i hwanted
      rw [SymbolTable.aimed, List.filter_cons_of_pos (by rw [hany, hwanted])]
      refine .bind (annotationUse_yields key bearer) fun _ _ hfirst => ?_
      refine .bind ih fun hgrows _ hrest => ?_
      exact .pure ⟨List.forall_mem_cons.mpr ⟨hknown, hrest.1⟩,
        .cons (View.grows _ hfirst hgrows) hrest.2⟩
    · rename_i hwanted
      rw [SymbolTable.aimed, List.filter_cons_of_neg (by rw [hany]; exact hwanted)]
      exact ih.mono fun _ hrest => ⟨List.forall_mem_cons.mpr ⟨hknown, hrest.1⟩, hrest.2⟩

theorem typeArguments_yields (owner : Option NodeId) (arguments : List (TypeArgument TypeKey)) :
    Yields world caches (typeArguments owner arguments)
      ((View.found (.node .typeReference)).argument.list.of
        (arguments.map (·.map (·.under owner)))) := by
  induction arguments generalizing caches with
  | nil => exact .pure .nil
  | cons argument arguments ih =>
    unfold typeArguments
    cases argument with
    | star =>
      simp only [pure_bind]
      exact .bind ih fun _ _ hrest => .pure (.cons trivial hrest)
    | projection variance type =>
      simp only [pure_bind]
      refine .bind (primaryReference_yields type owner) fun _ _ hfirst => ?_
      refine .bind ih fun hgrows _ hrest => ?_
      exact .pure (.cons ⟨rfl, View.grows _ hfirst hgrows⟩ hrest)

end Query

end SymbolGraph
