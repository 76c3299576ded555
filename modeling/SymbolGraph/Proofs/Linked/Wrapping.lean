import SymbolGraph.Proofs.Linked.Law
import SymbolGraph.Proofs.Graph.Regular

/-!
# Requests for wrappers in linked sessions

Every request for a wrapper keeps a session linked and answers with a wrapper of the session. Getters,
setters, value parameters and annotations are made for any node that is named, so whoever asks for
them has to name a node of the session.
-/

namespace SymbolGraph

variable {σ α : Type} {session : Session σ} {honest : Prop} {caches later : Caches} {kind : Kind}

/-- The query keeps a session linked. -/
abbrev Links (session : Session σ) (honest : Prop) (caches : Caches) (q : Query σ α) (F : Fact α) :
    Prop :=
  Sustains session (Linked honest) caches q F

namespace Links

variable {q : Query σ α}

theorem consult (h : Consult q) : Links session honest caches q .any :=
  Sustains.of_sameSession Linked.of_sameSession fun s => h.sameSession session s

theorem observes (h : Observes q) : Links session honest caches q .any :=
  Sustains.of_sameSession Linked.of_sameSession fun s => h.sameSession session s

/-- What is resolved is a wrapper of the session. -/
theorem resolve (handle : Handle kind) :
    Links session honest caches (Query.resolve handle) (.known kind) := by
  intro s hs hgrows
  obtain ⟨hlaw, hlater, hissued⟩ := Sustains.resolve handle s hs hgrows
  refine ⟨hlaw, hlater, fun hok => ?_⟩
  have hw := hissued hok
  rw [(Query.resolve_eq_ok hok).2] at hw ⊢
  change s.caches.Issued (kind.idOf _) _
  rw [hs.wellFormed.idOf_eq hw]
  exact hw

theorem wrap {key : kind.Key} {make : Query σ (Handle kind → kind.Wrapper)}
    (hmake : Links session honest caches make (.plan honest kind)) :
    Links session honest caches (Query.wrap kind key make) (.known kind) :=
  Sustains.wrap hmake (fun hs hplan => hs.create hplan) fun hs hw =>
    (hs.wellFormed kind).get_of_lookup hw

theorem memoize {cell : Cell} {compute : Query σ cell.Value}
    (hcompute : Links session honest caches compute cell.field.fact) :
    Links session honest caches (Query.memoize cell compute) cell.field.fact :=
  Sustains.memoize hcompute (fun hs _ hfact => hs.fill hfact) fun hs _ hv => hs.held hv

end Links

namespace Query

/-! ## Files and symbols -/

theorem file_links (key : FileKey) :
    Links session honest caches (file key) (.known (.node .file)) := by
  refine .wrap (.bind (Links.consult (.inquire (.file key))) fun _ _ => ?_)
  exact .pure fun _ => ⟨rfl, fun _ _ _ hnode => by cases hnode⟩

theorem classLike_links (key : SymbolKey) :
    Links session honest caches (classLike key) (.known (.node .classLike)) := by
  refine .wrap (.bind (Links.consult (.inquire (.symbol key))) fun {symbol _} _ _ => ?_)
  cases symbol.details
  case classLike => exact .pure fun _ => ⟨rfl, fun _ _ _ hnode => by cases hnode⟩
  all_goals exact .throw _

theorem function_links (key : SymbolKey) :
    Links session honest caches (function key) (.known (.node .function)) := by
  refine .wrap (.bind (Links.consult (.inquire (.symbol key))) fun {symbol _} _ _ => ?_)
  cases symbol.details
  case function => exact .pure fun _ => ⟨rfl, fun _ _ _ hnode => by cases hnode⟩
  all_goals exact .throw _

theorem property_links (key : SymbolKey) :
    Links session honest caches (property key) (.known (.node .property)) := by
  refine .wrap (.bind (Links.consult (.inquire (.symbol key))) fun {symbol _} _ _ => ?_)
  cases symbol.details
  case property => exact .pure fun _ => ⟨rfl, fun _ _ _ hnode => by cases hnode⟩
  all_goals exact .throw _

theorem typeParameter_links (key : SymbolKey) :
    Links session honest caches (typeParameter key) (.known (.node .typeParameter)) := by
  refine .wrap (.bind (Links.consult (.inquire (.symbol key))) fun {symbol _} _ _ => ?_)
  cases symbol.details
  case typeParameter => exact .pure fun _ => ⟨rfl, fun _ _ _ hnode => by cases hnode⟩
  all_goals exact .throw _

theorem getter_links {receiver : PropertyId} (hreceiver : honest → receiver.Issued caches)
    (key : SymbolKey) :
    Links session honest caches (getter receiver key) (.known (.node .getter)) := by
  refine .wrap (.bind (Links.consult (.inquire (.symbol key))) fun {symbol _} hgrows _ => ?_)
  cases symbol.details
  case getter =>
    refine .pure fun _ => ⟨rfl, fun _ hhonest _ hnode => ?_⟩
    cases hnode
    exact (hreceiver hhonest).grows hgrows
  all_goals exact .throw _

theorem setter_links {receiver : PropertyId} (hreceiver : honest → receiver.Issued caches)
    (key : SymbolKey) :
    Links session honest caches (setter receiver key) (.known (.node .setter)) := by
  refine .wrap (.bind (Links.consult (.inquire (.symbol key))) fun {symbol _} hgrows _ => ?_)
  cases symbol.details
  case setter =>
    refine .pure fun _ => ⟨rfl, fun _ hhonest _ hnode => ?_⟩
    cases hnode
    exact (hreceiver hhonest).grows hgrows
  all_goals exact .throw _

theorem valueParameter_links (key : SymbolKey) {parent : NodeId}
    (hparent : honest → parent.Issued caches) :
    Links session honest caches (valueParameter key parent) (.known (.node .valueParameter)) := by
  refine .wrap (.bind (Links.consult (.inquire (.symbol key))) fun {symbol _} hgrows _ => ?_)
  cases symbol.details
  case valueParameter =>
    refine .pure fun _ => ⟨rfl, fun _ hhonest _ hnode => ?_⟩
    cases hnode
    exact (hparent hhonest).grows hgrows
  all_goals exact .throw _

theorem declaration_links (key : SymbolKey) :
    Links session honest caches (declaration key) .declaration := by
  refine .bind (Links.consult (.inquire (.symbol key))) fun {symbol _} _ _ => ?_
  cases symbol.details
  case classLike => exact .map (classLike_links key) id
  case function => exact .map (function_links key) id
  case property => exact .map (property_links key) id
  case typeParameter => exact .map (typeParameter_links key) id
  all_goals exact .throw _

theorem nodeDeclaration_links (node : NodeId) :
    Links session honest caches (nodeDeclaration node) (.option .declaration) := by
  obtain ⟨kind, index⟩ := node
  cases kind
  case classLike => exact .map (Links.resolve _) fun hw => Fact.option_some hw
  case function => exact .map (Links.resolve _) fun hw => Fact.option_some hw
  case property => exact .map (Links.resolve _) fun hw => Fact.option_some hw
  case typeParameter => exact .map (Links.resolve _) fun hw => Fact.option_some hw
  all_goals exact .pure Fact.option_none

/-! ## References -/

theorem origin_links (node : NodeId) :
    Links session honest caches (origin node) (.originOf node) := by
  refine .bind (.resolve node.handle) fun {owner _} _ howner => ?_
  refine .of_law fun hs hgrows => .pure ⟨owner, howner.grows hgrows, rfl, fun above habove => ?_⟩
  obtain ⟨r, hr⟩ := hs.exists_reference (howner.grows hgrows) habove
  exact IdentityCache.get_eq_some_lt hr

/-- The owner of a reference need not be vouched for: it is resolved before the reference is made. -/
theorem typeReference_links (type : TypeKey) (parent : Option NodeId) (index : Int) :
    Links session honest caches (typeReference type parent index)
      (.known (.node .typeReference)) := by
  refine .wrap ?_
  cases parent with
  | none => exact .pure fun _ => ⟨rfl, fun _ => .nowhere rfl rfl⟩
  | some node =>
    refine .bind (origin_links node) fun {origin _} _ horigin => ?_
    obtain ⟨owner, howner, rfl, hbelow⟩ := horigin
    refine .pure fun id => ⟨rfl, fun hid => .under rfl howner rfl fun above habove => ?_⟩
    exact Nat.lt_of_lt_of_le (hbelow above habove) hid

theorem primaryReference_links (type : TypeKey) (parent : Option NodeId) :
    Links session honest caches (primaryReference type parent) (.known (.node .typeReference)) :=
  typeReference_links type parent (-1)

theorem classifierReference_links (key : TypeKey) {owner : TypeReference}
    (howner : caches.Issued owner.id owner) :
    Links session honest caches (classifierReference key owner)
      (.known (.node .classifierReference)) := by
  refine .wrap (.bind (Links.consult (.inquire (.type key))) fun {type _} hgrows _ => ?_)
  cases type.shape
  case classType => exact .pure fun _ => ⟨rfl, fun _ => ⟨owner, howner.grows hgrows, rfl⟩⟩
  all_goals exact .throw _

theorem callableReference_links (key : TypeKey) {owner : TypeReference}
    (howner : caches.Issued owner.id owner) :
    Links session honest caches (callableReference key owner)
      (.known (.node .callableReference)) := by
  refine .wrap (.bind (Links.consult (.inquire (.type key))) fun {type _} hgrows _ => ?_)
  cases type.shape
  case functional => exact .pure fun _ => ⟨rfl, fun _ => ⟨owner, howner.grows hgrows, rfl⟩⟩
  all_goals exact .throw _

theorem dynamicReference_links {owner : TypeReference} (howner : caches.Issued owner.id owner) :
    Links session honest caches (dynamicReference owner) (.known (.node .dynamicReference)) :=
  .wrap (.pure fun _ => ⟨rfl, fun _ => ⟨owner, howner, rfl⟩⟩)

/-! ## Types and annotations -/

theorem resolvedType_links (key : TypeKey) :
    Links session honest caches (resolvedType key) (.known .resolvedType) := by
  refine .wrap (.bind (Links.consult (.inquire (.type key))) fun _ _ => ?_)
  exact .pure fun _ => ⟨rfl, fun _ _ _ hnode => by cases hnode⟩

theorem annotationUse_links (key : AnnotationKey) {parent : Option NodeId}
    (hparent : honest → ∀ node, parent = some node → node.Issued caches) :
    Links session honest caches (annotationUse key parent) (.known (.node .annotationUse)) := by
  refine .wrap (.bind (Links.consult (.inquire (.annotationUse key))) fun hgrows _ => ?_)
  exact .pure fun _ => ⟨rfl, fun _ hhonest node hnode => (hparent hhonest node hnode).grows hgrows⟩

theorem valueArgument_links {owner : AnnotationId} (howner : owner.Issued caches)
    (source : ArgumentSource) (name : Option String) (value : AnnotationValue) (origin : Origin)
    (position : Option Position) :
    Links session honest caches (valueArgument owner source name value origin position)
      (.known (.node .valueArgument)) :=
  .wrap (.pure fun _ => ⟨rfl, fun _ => howner⟩)

/-! ## Lists of wrappers -/

theorem entries_links (owner : NodeId) (index : Nat) (types : List TypeKey) :
    Links session honest caches (entries owner index types)
      (.each (.known (.node .typeReference))) := by
  induction types generalizing caches index with
  | nil => exact .pure (List.forall_mem_nil _)
  | cons type types ih =>
    refine .bind (typeReference_links type owner index) fun _ hfirst => ?_
    refine .bind (ih (index + 1)) fun hgrows hrest => ?_
    exact .pure (List.forall_mem_cons.mpr ⟨hfirst.grows hgrows, hrest⟩)

theorem typeArguments_links (owner : Option NodeId) (arguments : List (TypeArgument TypeKey)) :
    Links session honest caches (typeArguments owner arguments)
      (.each (.argument (.known (.node .typeReference)))) := by
  induction arguments generalizing caches with
  | nil => exact .pure (List.forall_mem_nil _)
  | cons argument arguments ih =>
    unfold typeArguments
    cases argument with
    | star =>
      simp only [pure_bind]
      refine .bind ih fun _ hrest => .pure (List.forall_mem_cons.mpr ⟨?_, hrest⟩)
      rintro _ ⟨⟩
    | projection variance type =>
      simp only [pure_bind]
      refine .bind (primaryReference_links type owner) fun _ hfirst => ?_
      refine .bind ih fun hgrows hrest => .pure (List.forall_mem_cons.mpr ⟨?_, hrest⟩)
      rintro _ ⟨⟩
      exact hfirst.grows hgrows

theorem wrapAnnotations_links {bearer : Option NodeId}
    (hbearer : honest → ∀ node, bearer = some node → node.Issued caches) (keys : List AnnotationKey) :
    Links session honest caches (wrapAnnotations bearer keys)
      (.each (.known (.node .annotationUse))) :=
  .mapM_each (fun key => annotationUse_links key hbearer) keys

theorem selectAnnotations_links {bearer : NodeId} (hbearer : bearer.Issued caches)
    (wanted : Option UseSiteTarget → Bool) (keys : List AnnotationKey) :
    Links session honest caches (selectAnnotations bearer wanted keys)
      (.each (.known (.node .annotationUse))) := by
  induction keys generalizing caches with
  | nil => exact .pure (List.forall_mem_nil _)
  | cons key keys ih =>
    refine .bind (Links.consult (.inquire (.annotationUse key))) fun hgrows _ => ?_
    have hbearer := hbearer.grows hgrows
    split
    · refine .bind (annotationUse_links key fun _ node hnode => ?_) fun hgrows hfirst => ?_
      · cases hnode
        exact hbearer
      · refine .bind (ih (hbearer.grows hgrows)) fun hgrows hrest => ?_
        exact .pure (List.forall_mem_cons.mpr ⟨hfirst.grows hgrows, hrest⟩)
    · exact ih hbearer

end Query

end SymbolGraph
