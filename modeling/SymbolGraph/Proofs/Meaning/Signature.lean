import SymbolGraph.Proofs.Meaning.Containment

/-!
# What signatures mean

The types, parameters and accessors of declarations. Reading the return type of a function
may change the table; it does so for this function only, and always in the same way.
-/

namespace SymbolGraph

variable {world : World} {caches : Caches}

/-! ## Settling -/

namespace World.Admits

variable {types : ReturnTypes} {function : SymbolKey}

/-- A function that does not settle has the return type of the table. -/
theorem known_of_not_settles (h : world.Admits types) (hsettles : ¬ world.Settles function) :
    types.known[function]? = world.table.returnTypes.known[function]? := by
  rcases h function with ⟨hknown, _⟩ | ⟨hsettles', _⟩
  · exact hknown
  · exact absurd hsettles' hsettles

/-- After it is settled, a return type is the deferred one, if there was one. -/
theorem known_settle (h : world.Admits types) :
    (types.settle function).known[function]? = world.settledType function := by
  unfold ReturnTypes.settle World.settledType
  rcases h function with ⟨hknown, hdeferred⟩ | ⟨_, hknown, hdeferred⟩
  · rw [hdeferred]
    cases world.table.returnTypes.deferred[function]? with
    | none => simpa using hknown
    | some type => simp
  · rw [hdeferred]
    exact hknown

theorem deferred_settle (types : ReturnTypes) (function : SymbolKey) :
    (types.settle function).deferred[function]? = none := by
  unfold ReturnTypes.settle
  cases hdeferred : types.deferred[function]? with
  | none => exact hdeferred
  | some type => simp

/-- No other function is affected. -/
theorem settle_of_ne {other : SymbolKey} (types : ReturnTypes) (hne : other ≠ function) :
    (types.settle function).known[other]? = types.known[other]? ∧
      (types.settle function).deferred[other]? = types.deferred[other]? := by
  unfold ReturnTypes.settle
  cases types.deferred[function]? with
  | none => exact ⟨rfl, rfl⟩
  | some type =>
    simp [Std.TreeMap.getElem?_insert, Std.TreeMap.getElem?_erase, hne.symm]

theorem settle (h : world.Admits types) (hsettles : world.Settles function) :
    world.Admits (types.settle function) := by
  intro other
  by_cases hother : other = function
  · subst hother
    exact .inr ⟨hsettles, h.known_settle, deferred_settle types other⟩
  · obtain ⟨hknown, hdeferred⟩ := settle_of_ne types hother
    rw [hknown, hdeferred]
    exact h other

end World.Admits

namespace FunctionNode

variable {e : Entity (.node .function)} {f : FunctionNode} {s : SessionState ReturnTypes}

theorem context_answers (f : FunctionNode) :
    Answers world caches .plain f.context (.ok (world.context f)) := by
  unfold context World.context
  cases f.symbol.container with
  | none => exact .pure rfl
  | some container =>
    refine .bind_ok (.peek (.symbol container)) ?_
    rintro answer later _ _ rfl
    dsimp only
    cases world.peek (.symbol container) <;> exact .pure rfl

/-- What preparing a function does to a sound session. -/
theorem prepare_sound (hs : Sound world s) (hf : e.find s.caches = some f) :
    (∃ error, f.prepare world.session s = .error error s ∧
      world.prepare f = .error (.plain error)) ∨
    ∃ types, f.prepare world.session s = .ok () { s with oracle := types } ∧
      Sound world { s with oracle := types } ∧ world.prepare f = .ok () ∧
      types.known[f.key]? = world.foundType f := by
  have hd : View.declaration.Shows s.caches (.function f) e.node := ⟨f, hf, rfl⟩
  have hentity : e.node = (Entity.function f.key).node :=
    Declaration.entity_of_shows hs.faithful hd
  have hsymbol : world.inquire (.symbol f.key) = .ok f.symbol :=
    (Declaration.genuine_of_shows hs.faithful hd).symbol.1
  have hportrait : (Entity.function f.key).portrait world = .ok ((Kind.node .function).blank f) := by
    cases hentity
    exact (hs.faithful.fits hf).portrait
  have hneeds_blank : FunctionNode.needsSettling ((Kind.node .function).blank f) world.config =
      f.needsSettling world.config := rfl
  have hconfig : world.session.config = world.config := rfl
  rw [prepare_apply, hconfig]
  cases hneeds : f.needsSettling world.config with
  | false =>
    refine .inr ⟨s.oracle, rfl, hs, ?_, ?_⟩
    · rw [World.prepare, hneeds]
      rfl
    · rw [World.foundType, hneeds]
      apply hs.settled.known_of_not_settles
      -- A function that settles needs settling, and this one does not.
      rintro ⟨g, hg, hsettles⟩
      rw [hportrait] at hg
      cases hg
      rw [hneeds_blank, hneeds] at hsettles
      cases hsettles
  | true =>
    have hsettles : world.Settles f.key := ⟨_, hportrait, hneeds_blank.trans hneeds⟩
    cases hcontainer : f.symbol.container with
    | none =>
      refine .inl ⟨_, settle_of_top hcontainer world.session s, ?_⟩
      rw [World.prepare, hneeds, hcontainer, World.context, hcontainer]
      rfl
    | some owner =>
      have hrun : f.settle world.session s =
          .ok () { s with oracle := s.oracle.settle f.key } := by
        -- The symbol lies in the table with this container, so the front end does settle it.
        have hanswer : world.session.oracle.resolveInteropReturnType f.key owner s.oracle =
            (.ok (), s.oracle.settle f.key) := by
          change world.table.resolveInteropReturnType f.key owner s.oracle = _
          rw [SymbolTable.resolveInteropReturnType, World.symbols_of_inquire hsymbol]
          simp only [hcontainer, if_true]
        rw [settle_of_member hcontainer, Query.request_apply, hanswer]
      refine .inr ⟨s.oracle.settle f.key, hrun, ?_, ?_, ?_⟩
      · exact ⟨hs.faithful, hs.filled, hs.settled.settle hsettles⟩
      · rw [World.prepare, hneeds, hcontainer]
        rfl
      · rw [World.foundType, hneeds, hs.settled.known_settle]
        rfl

theorem prepare_answers (hf : e.find caches = some f) :
    Answers world caches .plain f.prepare (world.prepare f) := by
  intro s hs hgrows
  rcases prepare_sound hs (Entity.find_grows hf hgrows) with
    ⟨error, hrun, hm⟩ | ⟨types, hrun, hsound, hm, _⟩
  · rw [Action.after_of_error hrun, hrun, hm]
    exact ⟨hs, .refl _, .error rfl⟩
  · rw [Action.after_of_ok hrun, hrun, hm]
    exact ⟨hsound, .refl _, .ok rfl⟩

/-- What the front end knows of a function that was prepared. -/
theorem prepared_answers (hf : e.find caches = some f) :
    Answers world caches .plain (f.prepare >>= fun _ => Query.request (·.returnType f.key))
      (world.prepare f >>= fun _ =>
        match world.foundType f with
        | some type => return type
        | none => throw (.plain (.oracle (.unknownSymbol f.key)))) := by
  intro s hs hgrows
  rcases prepare_sound hs (Entity.find_grows hf hgrows) with
    ⟨error, hrun, hm⟩ | ⟨types, hrun, hsound, hm, hknown⟩
  · have hrun := Action.bind_of_error hrun fun _ => Query.request (·.returnType f.key)
    rw [Action.after_of_error hrun, hrun, hm]
    exact ⟨hs, .refl _, .error rfl⟩
  · have hanswer : world.session.oracle.returnType f.key types =
        ((world.foundType f).elim (.error (.unknownSymbol f.key)) .ok, types) := by
      rw [← hknown]
      rfl
    rw [Action.after, Action.bind_of_ok hrun, hm, Query.request_apply, hanswer]
    cases world.foundType f with
    | none => exact ⟨hsound, .refl _, .error rfl⟩
    | some type => exact ⟨hsound, .refl _, .ok rfl⟩

/-- A constructor returns the type of the class that it lies in. -/
theorem constructedType_answers (hf : e.find caches = some f) :
    Answers world caches .plain
      (do
        match ← (Declaration.function f).parent with
        | some ⟨.classLike, index⟩ =>
          let owner ← Query.resolve (⟨index⟩ : ClassId)
          Query.request (·.starProjectedType owner.key)
        | other => throw (.inconsistency (← f.context) "constructor declared in a class"
            (NodeId.optionText other)))
      (do
        match ← world.containerNode f.symbol with
        | some ⟨.classLike, .classLike key⟩ => world.inquire (.starProjectedType key)
        | other => throw (.noClass (world.context f) other)) := by
  have hd : View.declaration.Shows caches (.function f) e.node := ⟨f, hf, rfl⟩
  have hblame {caches : Caches} {node : Option NodeId} {n : Option NodeEntity}
      (hnode : View.node.option.Shows caches node n) :
      Answers world caches (.plain : View TypeKey TypeKey)
        (do throw (.inconsistency (← f.context) "constructor declared in a class"
          (NodeId.optionText node)))
        (throw (.noClass (world.context f) n)) := by
    refine .bind_ok (context_answers f) ?_
    rintro context later hgrows _ rfl
    exact .throw ⟨node, View.grows _ hnode hgrows, rfl⟩
  refine .bind (Declaration.parent_answers hd) ?_
  intro node n later _ _ hnode
  have hnode' := hnode
  cases hnode with
  | none => exact hblame hnode'
  | @some node n hat =>
    obtain ⟨kind, c⟩ := n
    obtain ⟨h, hat, rfl⟩ := hat
    cases c
    case classLike key =>
      refine .bind_ok (.resolve_wrapper hat) ?_
      intro w later _ hfaithful hw
      -- The class is known by the key of its symbol, which the front end is asked about.
      have hkey : w.key = key := by
        have hd : View.declaration.Shows later (.classLike w) (Entity.classLike key).node :=
          ⟨w, hw, rfl⟩
        cases Declaration.entity_of_shows hfaithful hd
        rfl
      rw [← hkey]
      exact .inquire (.starProjectedType w.key)
    all_goals exact hblame hnode'

theorem returnType_answers (hf : e.find caches = some f) :
    Answers world caches Field.returnType.view f.returnType (world.returnType f) := by
  refine .of_faithful fun hgrows hfaithful => ?_
  have hf := Entity.find_grows hf hgrows
  have hd : View.declaration.Shows _ (.function f) e.node := ⟨f, hf, rfl⟩
  cases Declaration.entity_of_shows hfaithful hd
  refine .field .functionReturnType hf ?_
  have hreference {caches : Caches} (hf : (Entity.function f.key).find caches = some f)
      (type : TypeKey) :
      Answers world caches Field.returnType.view (Query.primaryReference type f.id.node)
        (world.primaryReference type (Entity.function f.key).node) :=
    Query.primaryReference_answers (.some (View.wrapper_node hf)) type
  change Answers world _ Field.returnType.view _ (world.returnType f)
  unfold World.returnType returnTypeKey World.returnTypeKey
  by_cases hconstructor : f.details.isConstructor
  · simp only [if_pos hconstructor]
    refine .bind (prepare_answers hf) ?_
    intro _ _ later hgrows _ _
    have hf := Entity.find_grows hf hgrows
    refine .bind (constructedType_answers hf) ?_
    rintro type _ later hgrows _ rfl
    exact hreference (Entity.find_grows hf hgrows) type
  -- What preparing has done to the return types is read right after it.
  · simp only [if_neg hconstructor]
    rw [← bind_assoc, ← bind_assoc]
    refine .bind (prepared_answers hf) ?_
    rintro type _ later hgrows _ rfl
    exact hreference (Entity.find_grows hf hgrows) type

theorem category_answers (f : FunctionNode) :
    Answers world caches .plain f.category (world.functionCategory f) := by
  unfold category World.functionCategory
  cases f.symbol.kind
  case classMember | topLevel | samConstructor => exact .pure rfl
  all_goals
    refine .bind_ok (context_answers f) ?_
    rintro context later _ _ rfl
    exact .throw rfl

end FunctionNode

/-! ## Accessors and parameters -/

namespace Query

theorem receiverType_compute {n : NodeEntity} {owner : NodeId} (hat : n.At caches owner)
    (type : Option TypeKey) :
    Answers world caches Field.receiverType.view
      (do
        match type with
        | some type => return some (← primaryReference type owner)
        | none => return none)
      (world.receiverType n type) := by
  cases type with
  | none => exact .pure .none
  | some type => exact (primaryReference_answers (.some hat) type).map fun hr => .some hr

theorem typeParameters_compute (keys : List SymbolKey) :
    Answers world caches Field.typeParameters.view (keys.mapM typeParameter)
      (world.typeParameters keys) :=
  .mapM typeParameter_answers keys

end Query

theorem PropertyNode.getter_answers {e : Entity (.node .property)} {w : PropertyNode}
    (hw : e.find caches = some w) :
    Answers world caches Field.getter.view w.getter (world.getter w) := by
  refine .of_faithful fun hgrows hfaithful => ?_
  have hw := Entity.find_grows hw hgrows
  have hd : View.declaration.Shows _ (.property w) e.node := ⟨w, hw, rfl⟩
  cases Declaration.entity_of_shows hfaithful hd
  refine .field .propertyGetter hw ?_
  change Answers world _ _ _ (world.getter w)
  unfold World.getter
  cases w.details.getter with
  | none => exact .pure .none
  | some key => exact (Query.getter_answers (Entity.at_of_find hw) key).map fun hg => .some hg

theorem PropertyNode.setter_answers {e : Entity (.node .property)} {w : PropertyNode}
    (hw : e.find caches = some w) :
    Answers world caches Field.setter.view w.setter (world.setter w) := by
  refine .of_faithful fun hgrows hfaithful => ?_
  have hw := Entity.find_grows hw hgrows
  have hd : View.declaration.Shows _ (.property w) e.node := ⟨w, hw, rfl⟩
  cases Declaration.entity_of_shows hfaithful hd
  refine .field .propertySetter hw ?_
  change Answers world _ _ _ (world.setter w)
  unfold World.setter
  cases w.details.setter with
  | none => exact .pure .none
  | some key => exact (Query.setter_answers (Entity.at_of_find hw) key).map fun hg => .some hg

theorem SetterNode.parameter_answers {e : Entity (.node .setter)} {w : SetterNode}
    (hw : e.find caches = some w) (hreceiver : e.Fits world caches w) :
    Answers world caches Field.parameter.view w.parameter (world.setterParameter e w) := by
  refine .field .setterParameter hw ?_
  change Answers world caches _ _ (world.setterParameter e w)
  unfold World.setterParameter
  cases w.parameterKey with
  | none =>
    cases e with | setter receiver key =>
    exact .throw ⟨w.receiver, receiver_at hreceiver, rfl⟩
  | some key => exact Query.valueParameter_answers (View.wrapper_node hw) key

end SymbolGraph
