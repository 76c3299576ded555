import SymbolGraph.Proofs.Meaning.Place
import SymbolGraph.Proofs.Meaning.Reading
import SymbolGraph.Proofs.Session.Fact

/-!
# What operations mean

Whatever can be read off a wrapper from outside answers with a meaning, and every operation
on issued handles leaves a sound session sound.
-/

namespace SymbolGraph

variable {α β : Type} {world : World} {caches : Caches} {kind : Kind}

/-! ## Readings -/

/-- A wrapper as its entity, together with what it holds. -/
def View.contents (kind : Kind) : View kind.Wrapper (Entity kind × kind.Wrapper) where
  Shows caches w x := x.1.find caches = some w ∧ kind.blank w = x.2 ∧
    View.node.option.Shows caches (kind.above w) x.1.above
  grows h hgrows :=
    ⟨Entity.find_grows h.1 hgrows, h.2.1, View.node.option.grows h.2.2 hgrows⟩

theorem View.Exact.contents (wf : caches.WellFormed) (kind : Kind) :
    (View.contents kind).Exact caches where
  shown h h' :=
    Prod.ext ((View.Exact.wrapper wf kind).shown h.1 h'.1) (h.2.1.symm.trans h'.2.1)
  showing h h' := (View.Exact.wrapper wf kind).showing h.1 h'.1

/-- An item of a list, made from the key at its position if there is one. -/
def World.item {κ : Type} (keys : List κ) (position : Nat) (make : κ → Meaning β) :
    Meaning (Option β) := do
  match keys[position]? with
  | some key => return some (← make key)
  | none => return none

namespace Reading

/-- What the result of a reading shows. -/
@[reducible] def Sight : Reading kind α → Type
  | @wrapper kind => Entity kind × kind.Wrapper
  | @field _ kept _ => kept.Sight
  | origin => Origin
  | location => Location
  | parent => Option NodeEntity
  | children => List NodeEntity
  | declaration .. | overridden | parentDeclaration => Option NodeEntity
  | classCategory => ClassCategory
  | classConstructor _ | primaryConstructor => Option (Entity (.node .function))
  | starProjectedType => Entity .resolvedType
  | functionCategory => FunctionCategory
  | getterReceiver | setterReceiver => Entity (.node .property)
  | render => String
  | resolve => Option (Entity .resolvedType)
  | defaultArguments => List (Entity (.node .valueArgument))
  | isStarProjected => Bool

def view : (r : Reading kind α) → View α r.Sight
  | @wrapper kind => View.contents kind
  | @field _ kept _ => kept.view
  | origin | location | classCategory | functionCategory | render | isStarProjected => .plain
  | parent => View.node.option
  | children => View.node.list
  | declaration .. | overridden | parentDeclaration => View.declaration.option
  | classConstructor _ | primaryConstructor => (View.wrapper (.node .function)).option
  | starProjectedType => View.wrapper .resolvedType
  | getterReceiver | setterReceiver => View.wrapper (.node .property)
  | resolve => (View.wrapper .resolvedType).option
  | defaultArguments => (View.wrapper (.node .valueArgument)).list

theorem view_exact (wf : caches.WellFormed) (r : Reading kind α) : r.view.Exact caches := by
  cases r with
  | wrapper => exact .contents wf _
  | field f => exact Field.view_exact wf _
  | origin | location | classCategory | functionCategory | render | isStarProjected => exact .plain
  | parent => exact (View.Exact.node wf).option
  | children => exact (View.Exact.node wf).list
  | declaration | overridden | parentDeclaration => exact (View.Exact.declaration wf).option
  | classConstructor | primaryConstructor | resolve => exact (View.Exact.wrapper wf _).option
  | starProjectedType | getterReceiver | setterReceiver => exact .wrapper wf _
  | defaultArguments => exact (View.Exact.wrapper wf _).list

/-- What a reading means for an entity, given the portrait of the entity. -/
def sight (world : World) : (r : Reading kind α) → Entity kind → kind.Wrapper → Meaning r.Sight
  | wrapper, e, w => return (e, w)
  | field f, e, w => f.sight world e w
  | @origin kind, _, w => return kind.origin w
  | location, e, _ => return e.location world
  | @parent kind, e, w =>
    match kind.declaration? w with
    | some d => world.containerNode d.symbol
    | none => return e.above
  | @children kind, e, w => kind.below world e w
  | declaration scope position, _, w =>
    World.item (scope.declarationKeys w) position world.declaration
  | classCategory, _, w => World.category w
  | classConstructor position, _, (w : ClassNode) =>
    World.item w.details.constructors position fun key => world.wrap (.function key)
  | primaryConstructor, _, (w : ClassNode) =>
    World.item w.details.constructors 0 fun key => world.wrap (.function key)
  | starProjectedType, _, (w : ClassNode) => do
    world.wrap (.resolvedType (← world.inquire (.starProjectedType w.key)))
  | functionCategory, _, w => world.functionCategory w
  | overridden, _, _ => throw (.plain (.notImplemented "find_overridee"))
  | parentDeclaration, _, (w : PropertyNode) => world.parentDeclaration w.symbol
  | getterReceiver, .getter receiver _, _ => return .property receiver
  | setterReceiver, .setter receiver _, _ => return .property receiver
  | render, _, w => world.render w
  | resolve, _, w => world.resolve w
  | defaultArguments, _, _ => throw (.plain (.notImplemented "default_arguments"))
  | isStarProjected, e, w => do
    let arguments ← LazyField.typeArguments.sight world e w
    return !arguments.isEmpty && arguments.all TypeArgument.isStar

def meaning (world : World) (r : Reading kind α) (e : Entity kind) : Meaning r.Sight := do
  r.sight world e (← e.portrait world)

end Reading

theorem Query.item_answers {κ : Type} {v : View α β} {make : κ → Query ReturnTypes α}
    {make' : κ → Meaning β} (h : ∀ key, Answers world caches v (make key) (make' key))
    (keys : List κ) (position : Nat) :
    Answers world caches v.option (item keys position make) (World.item keys position make') := by
  rw [item, World.item]
  cases keys[position]? with
  | some key => exact (h key).map .some
  | none => exact .pure .none

theorem ClassNode.primaryConstructor_answers (w : ClassNode) :
    Answers world caches (View.wrapper (.node .function)).option w.primaryConstructor
      (World.item w.details.constructors 0 fun key => world.wrap (.function key)) := by
  have hfirst : (w.primaryConstructor : Query ReturnTypes _) =
      Query.item w.details.constructors 0 Query.function := by
    rw [primaryConstructor, Query.item]
    cases w.details.constructors <;> rfl
  rw [hfirst]
  exact Query.item_answers Query.function_answers _ 0

theorem ClassNode.starProjectedType_answers (w : ClassNode) :
    Answers world caches (View.wrapper .resolvedType) w.starProjectedType (do
      world.wrap (.resolvedType (← world.inquire (.starProjectedType w.key)))) := by
  refine .bind (.inquire (.starProjectedType w.key)) ?_
  rintro key _ later _ _ rfl
  exact Query.resolvedType_answers key

theorem NodeKind.parent_answers {kind : NodeKind} {e : Entity (.node kind)} {w : kind.Wrapper}
    (hw : e.find caches = some w) :
    Answers world caches View.node.option (kind.parent w)
      (Reading.parent.sight world e ((Kind.node kind).blank w)) := by
  refine .of_faithful fun hgrows hfaithful => ?_
  have hw := Entity.find_grows hw hgrows
  have habove := (hfaithful.fits hw).above
  cases kind
  case classLike | function | property | typeParameter =>
    exact Declaration.parent_answers (View.wrapper_declaration hw rfl)
  case file =>
    cases e
    exact .pure .none
  all_goals exact .pure habove

theorem ResolvedType.isStarProjected_answers {e : Entity .resolvedType} {w : ResolvedType}
    (hw : e.find caches = some w) :
    Answers world caches .plain w.isStarProjected
      (Reading.isStarProjected.sight world e (Kind.resolvedType.blank w)) := by
  refine (LazyField.typeArguments.read_answers hw).map ?_
  intro arguments sights later h
  have hall : arguments.all TypeArgument.isStar = sights.all TypeArgument.isStar := by
    induction h with
    | nil => rfl
    | @cons a b _ _ hab _ ih =>
      -- Stars are shown as stars.
      have hstar : a.isStar = b.isStar := by
        cases a <;> cases b <;> first | rfl | cases hab
      rw [List.all_cons, List.all_cons, hstar, ih]
  have hempty : arguments.isEmpty = sights.isEmpty := by cases h <;> rfl
  change _ = _
  rw [hall, hempty]

namespace Reading

theorem query_answers (r : Reading kind α) {e : Entity kind} {w : kind.Wrapper}
    (hw : e.find caches = some w) :
    Answers world caches r.view (r.query w) (r.sight world e (kind.blank w)) := by
  refine .of_faithful fun hgrows hfaithful => ?_
  have hw := Entity.find_grows hw hgrows
  have hfits := hfaithful.fits hw
  cases r with
  | wrapper => exact .pure ⟨hw, rfl, hfits.above⟩
  | field f => exact f.read_answers hw
  | origin => exact .pure (NodeKind.origin_blank _ w).symm
  | location => exact NodeKind.location_answers hw
  | parent => exact NodeKind.parent_answers hw
  | children => exact NodeKind.children_answers hw
  | declaration scope position =>
    cases scope <;> exact Query.item_answers Query.declaration_answers _ position
  | classCategory => exact ClassNode.category_answers w
  | classConstructor position => exact Query.item_answers Query.function_answers _ position
  | primaryConstructor => exact ClassNode.primaryConstructor_answers w
  | starProjectedType => exact ClassNode.starProjectedType_answers w
  | functionCategory => exact FunctionNode.category_answers w
  | overridden => exact .throw rfl
  | parentDeclaration => exact Declaration.parentDeclaration_answers (View.wrapper_declaration hw rfl)
  | getterReceiver =>
    cases e
    exact .resolve_wrapper (GetterNode.receiver_at hfits)
  | setterReceiver =>
    cases e
    exact .resolve_wrapper (SetterNode.receiver_at hfits)
  | render => exact TypeReference.render_answers w
  | resolve => exact TypeReference.resolve_answers w
  | defaultArguments => exact .throw rfl
  | isStarProjected => exact ResolvedType.isStarProjected_answers hw

end Reading

/-! ## Issued handles -/

def Wrapping.Issued (caches : Caches) : Wrapping kind → Prop
  | getter receiver _ | setter receiver _ => receiver.Issued caches
  | valueParameter _ parent => parent.Issued caches
  | typeReference _ parent _ | annotationUse _ parent => ∀ node, parent = some node → node.Issued caches
  | _ => True

/-- The operation names no handles but issued ones. -/
def Operation.Issued (caches : Caches) : Operation α → Prop
  | wrap w => w.Issued caches
  | declaration _ => True
  | nodeDeclaration node => node.Issued caches
  | read h _ => h.Issued caches

namespace Faithful

/-- Every issued handle leads to just one entity. -/
theorem existsUnique_at (hfaithful : Faithful world caches) {h : Handle kind}
    (hissued : h.Issued caches) : ∃! e : Entity kind, e.At caches h := by
  obtain ⟨w, hw⟩ := hissued
  obtain ⟨e, he⟩ := hfaithful.exists_find hw
  have hid : kind.idOf w = h := congrArg Handle.mk ((hfaithful.wellFormed kind).numbered hw)
  refine ⟨e, ⟨w, he, hid⟩, fun e' he' => ?_⟩
  exact Entity.At.injective hfaithful.wellFormed he' ⟨w, he, hid⟩

theorem exists_at (hfaithful : Faithful world caches) {node : NodeId}
    (hissued : node.Issued caches) : ∃ n : NodeEntity, n.At caches node := by
  obtain ⟨e, hat, _⟩ := hfaithful.existsUnique_at hissued
  exact ⟨e.node, _, hat, rfl⟩

theorem exists_list_at (hfaithful : Faithful world caches) {nodes : List NodeId}
    (hissued : ∀ node ∈ nodes, node.Issued caches) : ∃ ns, View.node.list.Shows caches nodes ns := by
  induction nodes with
  | nil => exact ⟨[], .nil⟩
  | cons node nodes ih =>
    obtain ⟨hfirst, hrest⟩ := List.forall_mem_cons.mp hissued
    obtain ⟨n, hat⟩ := hfaithful.exists_at hfirst
    obtain ⟨ns, hshows⟩ := ih hrest
    exact ⟨n :: ns, .cons hat hshows⟩

theorem exists_option_at (hfaithful : Faithful world caches) {node : Option NodeId}
    (hissued : ∀ id, node = some id → id.Issued caches) :
    ∃ n, View.node.option.Shows caches node n := by
  cases node with
  | none => exact ⟨none, .none⟩
  | some id =>
    obtain ⟨n, hat⟩ := hfaithful.exists_at (hissued id rfl)
    exact ⟨some n, .some hat⟩

end Faithful

/-! ## Operations -/

theorem Wrapping.query_answers (w : Wrapping kind) (hfaithful : Faithful world caches)
    (hissued : w.Issued caches) :
    ∃ e : Entity kind, Answers world caches (.wrapper kind) w.query (world.wrap e) := by
  cases w with
  | file key => exact ⟨_, Query.file_answers key⟩
  | classLike key => exact ⟨_, Query.classLike_answers key⟩
  | function key => exact ⟨_, Query.function_answers key⟩
  | property key => exact ⟨_, Query.property_answers key⟩
  | typeParameter key => exact ⟨_, Query.typeParameter_answers key⟩
  | resolvedType key => exact ⟨_, Query.resolvedType_answers key⟩
  | getter _ key =>
    obtain ⟨e, hat, _⟩ := hfaithful.existsUnique_at hissued
    cases e
    exact ⟨_, Query.getter_answers hat key⟩
  | setter _ key =>
    obtain ⟨e, hat, _⟩ := hfaithful.existsUnique_at hissued
    cases e
    exact ⟨_, Query.setter_answers hat key⟩
  | valueParameter key =>
    obtain ⟨n, hat⟩ := hfaithful.exists_at hissued
    exact ⟨_, Query.valueParameter_answers hat key⟩
  | typeReference type _ index =>
    obtain ⟨n, hat⟩ := hfaithful.exists_option_at hissued
    exact ⟨_, Query.typeReference_answers hat type index⟩
  | annotationUse key =>
    obtain ⟨n, hat⟩ := hfaithful.exists_option_at hissued
    exact ⟨_, Query.annotationUse_answers hat key⟩

theorem Operation.read_answers {e : Entity kind} {h : Handle kind} (hat : e.At caches h)
    (r : Reading kind α) :
    Answers world caches r.view (Operation.read h r).query (r.meaning world e) := by
  refine .bind (.resolve hat) ?_
  rintro w _ later _ _ ⟨hw, rfl⟩
  exact r.query_answers hw

/-- Operations on issued handles answer with some meaning. -/
theorem Operation.query_answers (op : Operation α) (hfaithful : Faithful world caches)
    (hissued : op.Issued caches) :
    ∃ (β : Type) (v : View α β) (m : Meaning β), Answers world caches v op.query m := by
  cases op with
  | wrap w =>
    obtain ⟨e, hanswers⟩ := w.query_answers hfaithful hissued
    exact ⟨_, _, _, hanswers⟩
  | declaration key => exact ⟨_, _, _, Query.declaration_answers key⟩
  | nodeDeclaration node =>
    obtain ⟨n, hat⟩ := hfaithful.exists_at hissued
    exact ⟨_, _, _, Query.nodeDeclaration_answers hat⟩
  | read h r =>
    obtain ⟨e, hat, _⟩ := hfaithful.existsUnique_at hissued
    exact ⟨_, _, _, Operation.read_answers hat r⟩

theorem Operation.query_sound {s : SessionState ReturnTypes} (op : Operation α)
    (hs : Sound world s) (hissued : op.Issued s.caches) :
    Sound world (op.query.after world.session s) := by
  obtain ⟨_, _, _, hanswers⟩ := op.query_answers hs.faithful hissued
  exact (hanswers s hs (.refl _)).1

end SymbolGraph
