import SymbolGraph.Proofs.Meaning.Answers

/-!
# What requests for wrappers mean

Every request for a wrapper answers with the entity that it names.
-/

namespace SymbolGraph

variable {world : World} {caches : Caches}

namespace Query

/-! ## Files and symbols -/

theorem file_answers (key : FileKey) :
    Answers world caches (.wrapper (.node .file)) (file key) (world.wrap (.file key)) := by
  refine .wrap rfl (.bind (.inquire (.file key)) ?_)
  rintro record _ later _ _ rfl
  exact .pure fun id => ⟨rfl, rfl, .none⟩

theorem classLike_answers (key : SymbolKey) :
    Answers world caches (.wrapper (.node .classLike)) (classLike key)
      (world.wrap (.classLike key)) := by
  refine .wrap rfl (.bind (.inquire (.symbol key)) ?_)
  rintro symbol _ later _ _ rfl
  cases symbol.details
  case classLike details => exact .pure fun id => ⟨rfl, rfl, .none⟩
  all_goals exact .throw rfl

theorem function_answers (key : SymbolKey) :
    Answers world caches (.wrapper (.node .function)) (function key)
      (world.wrap (.function key)) := by
  refine .wrap rfl (.bind (.inquire (.symbol key)) ?_)
  rintro symbol _ later _ _ rfl
  cases symbol.details
  case function details => exact .pure fun id => ⟨rfl, rfl, .none⟩
  all_goals exact .throw rfl

theorem property_answers (key : SymbolKey) :
    Answers world caches (.wrapper (.node .property)) (property key)
      (world.wrap (.property key)) := by
  refine .wrap rfl (.bind (.inquire (.symbol key)) ?_)
  rintro symbol _ later _ _ rfl
  cases symbol.details
  case property details => exact .pure fun id => ⟨rfl, rfl, .none⟩
  all_goals exact .throw rfl

/-- A property that is only asked for because of its key. -/
theorem receiver_answers (key : SymbolKey) :
    Answers world caches ((View.wrapper (.node .property)).comap Entity.property) (property key)
      (do let _ ← world.wrap (.property key); return key) := by
  refine (property_answers key).see ?_ ?_
  · intro e herror
    rw [herror, Meaning.error_bind]
  · intro p e later hok hp
    obtain ⟨rfl, _⟩ := World.wrap_eq_ok hok
    refine ⟨key, ?_, hp⟩
    rw [hok, Meaning.ok_bind]
    rfl

theorem typeParameter_answers (key : SymbolKey) :
    Answers world caches (.wrapper (.node .typeParameter)) (typeParameter key)
      (world.wrap (.typeParameter key)) := by
  refine .wrap rfl (.bind (.inquire (.symbol key)) ?_)
  rintro symbol _ later _ _ rfl
  cases symbol.details
  case typeParameter details => exact .pure fun id => ⟨rfl, rfl, .none⟩
  all_goals exact .throw rfl

theorem getter_answers {receiver : SymbolKey} {property : PropertyId}
    (hat : (Entity.property receiver).At caches property) (key : SymbolKey) :
    Answers world caches (.wrapper (.node .getter)) (getter property key)
      (world.wrap (.getter receiver key)) := by
  have hkey : (Entity.getter receiver key).keyIn caches =
      some { receiver := property, symbol := key } := by
    obtain ⟨p, hp, rfl⟩ := hat
    exact Entity.map_find hp _
  refine .wrap hkey (.bind (.inquire (.symbol key)) ?_)
  rintro symbol _ later hgrows _ rfl
  cases symbol.details
  case getter returnType =>
    exact .pure fun id => ⟨rfl, rfl, .some ⟨_, hat.grows hgrows, rfl⟩⟩
  all_goals exact .throw rfl

theorem setter_answers {receiver : SymbolKey} {property : PropertyId}
    (hat : (Entity.property receiver).At caches property) (key : SymbolKey) :
    Answers world caches (.wrapper (.node .setter)) (setter property key)
      (world.wrap (.setter receiver key)) := by
  have hkey : (Entity.setter receiver key).keyIn caches =
      some { receiver := property, symbol := key } := by
    obtain ⟨p, hp, rfl⟩ := hat
    exact Entity.map_find hp _
  refine .wrap hkey (.bind (.inquire (.symbol key)) ?_)
  rintro symbol _ later hgrows _ rfl
  cases symbol.details
  case setter parameter =>
    exact .pure fun id => ⟨rfl, rfl, .some ⟨_, hat.grows hgrows, rfl⟩⟩
  all_goals exact .throw rfl

theorem valueParameter_answers {n : NodeEntity} {node : NodeId} (hat : n.At caches node)
    (key : SymbolKey) :
    Answers world caches (.wrapper (.node .valueParameter)) (valueParameter key node)
      (world.wrap (.valueParameter key n.entity)) := by
  have hkey : (Entity.valueParameter key n.entity).keyIn caches =
      some { symbol := key, parent := node } := by
    obtain ⟨_, ⟨p, hp, rfl⟩, rfl⟩ := hat
    exact Entity.map_find hp _
  refine .wrap hkey (.bind (.inquire (.symbol key)) ?_)
  rintro symbol _ later hgrows _ rfl
  cases symbol.details
  case valueParameter details =>
    have hat' := hat.grows hgrows
    obtain ⟨_, _, rfl⟩ := hat
    exact .pure fun id => ⟨rfl, rfl, .some hat'⟩
  all_goals exact .throw rfl

theorem declaration_answers (key : SymbolKey) :
    Answers world caches .declaration (declaration key) (world.declaration key) := by
  refine .bind (.inquire (.symbol key)) ?_
  rintro symbol _ later _ _ rfl
  cases symbol.details
  case classLike details => exact (classLike_answers key).map fun hw => ⟨_, hw, rfl⟩
  case function details => exact (function_answers key).map fun hw => ⟨_, hw, rfl⟩
  case property details => exact (property_answers key).map fun hw => ⟨_, hw, rfl⟩
  case typeParameter details => exact (typeParameter_answers key).map fun hw => ⟨_, hw, rfl⟩
  all_goals exact .throw rfl

/-! ## Types, references and annotations -/

theorem origin_answers {n : NodeEntity} {node : NodeId} (hat : n.At caches node) :
    Answers world caches .plain (origin node) (world.origin n) := by
  obtain ⟨h, hat, rfl⟩ := hat
  refine (Answers.resolve hat).map ?_
  rintro w _ later ⟨_, rfl⟩
  exact (NodeKind.origin_blank n.kind w).symm

theorem typeReference_answers {n : Option NodeEntity} {node : Option NodeId}
    (hat : View.node.option.Shows caches node n) (type : TypeKey) (index : Int) :
    Answers world caches (.wrapper (.node .typeReference)) (typeReference type node index)
      (world.wrap (.reference type n index)) := by
  cases hat with
  | none =>
    refine .wrap rfl (.bind_ok (v := .plain) (.pure rfl) ?_)
    rintro origin later _ _ rfl
    exact .pure fun id => ⟨rfl, rfl, .none⟩
  | @some node n hat =>
    have hkey : (Entity.typeReference type n.entity index).keyIn caches =
        some { type, parent := some node, index } := by
      obtain ⟨_, ⟨p, hp, rfl⟩, rfl⟩ := hat
      exact Entity.map_find hp _
    -- The origin is taken from the portrait of the parent, as the query takes it from the wrapper.
    have hportrait : (Entity.typeReference type n.entity index).portrait world =
        (do
          let origin ← world.origin n
          return { id := ⟨0⟩, type, parent := some ⟨n.kind, 0⟩, index, origin }) := by
      simp only [Entity.portrait, World.origin, bind_assoc, pure_bind]
    change Answers world caches (.wrapper _) _ (world.wrap (.typeReference type n.entity index))
    refine .wrap hkey ?_
    rw [hportrait]
    refine .bind (origin_answers hat) ?_
    rintro origin _ later hgrows _ rfl
    have hat' := hat.grows hgrows
    obtain ⟨_, _, rfl⟩ := hat
    exact .pure fun id => ⟨rfl, rfl, .some hat'⟩

theorem primaryReference_answers {n : Option NodeEntity} {node : Option NodeId}
    (hat : View.node.option.Shows caches node n) (type : TypeKey) :
    Answers world caches (.wrapper (.node .typeReference)) (primaryReference type node)
      (world.primaryReference type n) :=
  typeReference_answers hat type (-1)

theorem resolvedType_answers (key : TypeKey) :
    Answers world caches (.wrapper .resolvedType) (resolvedType key)
      (world.wrap (.resolvedType key)) := by
  refine .wrap rfl (.bind (.inquire (.type key)) ?_)
  rintro type _ later _ _ rfl
  exact .pure fun id => ⟨rfl, rfl, .none⟩

theorem annotationUse_answers {n : Option NodeEntity} {node : Option NodeId}
    (hat : View.node.option.Shows caches node n) (key : AnnotationKey) :
    Answers world caches (.wrapper (.node .annotationUse)) (annotationUse key node)
      (world.wrap (.annotationOn key n)) := by
  cases hat with
  | none =>
    refine .wrap rfl (.bind (.inquire (.annotationUse key)) ?_)
    rintro record _ later _ _ rfl
    exact .pure fun id => ⟨rfl, rfl, .none⟩
  | @some node n hat =>
    have hkey : (Entity.annotationUse key n.entity).keyIn caches =
        some { key, parent := some node } := by
      obtain ⟨_, ⟨p, hp, rfl⟩, rfl⟩ := hat
      exact Entity.map_find hp _
    refine .wrap hkey (.bind (.inquire (.annotationUse key)) ?_)
    rintro record _ later hgrows _ rfl
    have hat' := hat.grows hgrows
    obtain ⟨_, _, rfl⟩ := hat
    exact .pure fun id => ⟨rfl, rfl, .some hat'⟩

/-- An argument is wrapped as its portrait shows it, if it is passed the data in the portrait. -/
theorem valueArgument_answers {e : Entity (.node .annotationUse)} {owner : AnnotationId}
    (hat : e.At caches owner) {source : ArgumentSource} {name : Option String}
    {value : AnnotationValue} {origin : Origin} {position : Option Position}
    (hportrait : (Entity.valueArgument e source).portrait world =
      .ok { id := ⟨0⟩, owner := ⟨0⟩, name, value, origin, position }) :
    Answers world caches (.wrapper (.node .valueArgument))
      (valueArgument owner source name value origin position)
      (world.wrap (.valueArgument e source)) := by
  have hkey : (Entity.valueArgument e source).keyIn caches = some { owner, source } := by
    obtain ⟨a, ha, rfl⟩ := hat
    exact Entity.map_find ha _
  refine .wrap hkey ?_
  rw [hportrait]
  exact .pure fun id => ⟨rfl, rfl, .some ⟨_, hat, rfl⟩⟩

theorem classifierReference_answers {e : Entity (.node .typeReference)} {owner : TypeReference}
    (hw : e.find caches = some owner) (key : TypeKey) :
    Answers world caches (.wrapper (.node .classifierReference)) (classifierReference key owner)
      (world.wrap (.classifierReference key e)) := by
  have hkey : (Entity.classifierReference key e).keyIn caches =
      some { type := key, owner := owner.id } :=
    Entity.map_find hw _
  refine .wrap hkey (.of_faithful fun hgrows hfaithful => ?_)
  have hw' := Entity.find_grows hw hgrows
  rw [Entity.portrait, (hfaithful.fits hw').portrait, Meaning.ok_bind]
  refine .bind (.inquire (.type key)) ?_
  rintro type _ later hgrows _ rfl
  cases type.shape
  case classType =>
    exact .pure fun id => ⟨rfl, rfl, .some (View.wrapper_node (Entity.find_grows hw' hgrows))⟩
  all_goals exact .throw rfl

theorem callableReference_answers {e : Entity (.node .typeReference)} {owner : TypeReference}
    (hw : e.find caches = some owner) (key : TypeKey) :
    Answers world caches (.wrapper (.node .callableReference)) (callableReference key owner)
      (world.wrap (.callableReference key e)) := by
  have hkey : (Entity.callableReference key e).keyIn caches =
      some { type := key, owner := owner.id } :=
    Entity.map_find hw _
  refine .wrap hkey (.of_faithful fun hgrows hfaithful => ?_)
  have hw' := Entity.find_grows hw hgrows
  rw [Entity.portrait, (hfaithful.fits hw').portrait, Meaning.ok_bind]
  refine .bind (.inquire (.type key)) ?_
  rintro type _ later hgrows _ rfl
  cases type.shape
  case functional =>
    exact .pure fun id => ⟨rfl, rfl, .some (View.wrapper_node (Entity.find_grows hw' hgrows))⟩
  all_goals exact .throw rfl

theorem dynamicReference_answers {e : Entity (.node .typeReference)} {owner : TypeReference}
    (hw : e.find caches = some owner) :
    Answers world caches (.wrapper (.node .dynamicReference)) (dynamicReference owner)
      (world.wrap (.dynamicReference e)) := by
  have hkey : (Entity.dynamicReference e).keyIn caches = some owner.id := Entity.map_find hw _
  refine .wrap hkey (.of_faithful fun hgrows hfaithful => ?_)
  have hw' := Entity.find_grows hw hgrows
  rw [Entity.portrait, (hfaithful.fits hw').portrait, Meaning.ok_bind]
  exact .pure fun id => ⟨rfl, rfl, .some (View.wrapper_node hw')⟩

/-! ## Lists of types and annotations -/

theorem entries_answers {n : NodeEntity} {node : NodeId} (hat : n.At caches node) (index : Nat)
    (types : List TypeKey) :
    Answers world caches (View.wrapper (.node .typeReference)).list (entries node index types)
      (world.entries n index types) := by
  induction types generalizing caches index with
  | nil => exact .pure .nil
  | cons type types ih =>
    refine .bind (typeReference_answers (.some hat) type index) ?_
    intro first _ later hgrows _ hfirst
    refine .bind (ih (hat.grows hgrows) (index + 1)) ?_
    intro rest _ later' hgrows _ hrest
    exact .pure (.cons (View.grows _ hfirst hgrows) hrest)

end Query

end SymbolGraph
