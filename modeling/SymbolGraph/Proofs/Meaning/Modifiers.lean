import SymbolGraph.Proofs.Meaning.Containment

/-!
# What modifiers and comments mean
-/

namespace SymbolGraph

variable {world : World} {caches : Caches}

/-! ## Modifiers -/

theorem ClassNode.category_answers (w : ClassNode) :
    Answers world caches .plain w.category (World.category w) := by
  unfold category World.category
  cases w.details.kind with
  | none => exact .throw rfl
  | some kind => exact .pure rfl

theorem ClassNode.modifiers_answers {e : Entity (.node .classLike)} {w : ClassNode}
    (hw : e.find caches = some w) :
    Answers world caches .plain w.modifiers
      (do return w.symbol.classModifiers w.details.flags (← World.category w)) := by
  refine .field .classModifiers hw ?_
  refine (category_answers w).map ?_
  rintro category _ _ rfl
  rfl

theorem FunctionNode.modifiers_answers {e : Entity (.node .function)} {w : FunctionNode}
    (hw : e.find caches = some w) :
    Answers world caches .plain w.modifiers (.ok (w.symbol.functionModifiers w.details.flags)) :=
  .field .functionModifiers hw (.pure rfl)

theorem PropertyNode.modifiers_answers {e : Entity (.node .property)} {w : PropertyNode}
    (hw : e.find caches = some w) :
    Answers world caches .plain w.modifiers (.ok (w.symbol.propertyModifiers w.details.flags)) :=
  .field .propertyModifiers hw (.pure rfl)

theorem TypeParameterNode.modifiers_answers {e : Entity (.node .typeParameter)}
    {w : TypeParameterNode} (hw : e.find caches = some w) :
    Answers world caches .plain w.modifiers (.ok (w.symbol.typeParameterModifiers w.details)) :=
  .field .typeParameterModifiers hw (.pure rfl)

/-- Only the property of an accessor and the class around it are looked at. -/
theorem Accessor.modifiers_compute {a : Accessor} {receiver : SymbolKey}
    (hreceiver : (Entity.property receiver).At caches a.receiver) :
    Answers world caches .plain
      (do
        let written := a.symbol.keywordModifiers
        if a.symbol.accessorOrigin = .synthetic then
          let property ← Query.resolve a.receiver
          match ← (Declaration.property property).parentDeclaration with
          | some (.classLike c) =>
            return written.insertIf ((← c.category) = .interface) .abstract
          | _ => return written
        else return written)
      (world.accessorModifiers a receiver) := by
  unfold World.accessorModifiers
  dsimp only
  by_cases hsynthetic : a.symbol.accessorOrigin = .synthetic
  · rw [if_pos hsynthetic, if_pos hsynthetic]
    refine .bind (.resolve hreceiver) ?_
    rintro property _ later _ _ ⟨hproperty, rfl⟩
    have hd : View.declaration.Shows later (.property property) (Entity.property receiver).node :=
      ⟨property, hproperty, rfl⟩
    -- Only a class around the property makes a difference, and its portrait tells of what sort it is.
    refine .bind (Declaration.parentDeclaration_answers hd) ?_
    intro outer n later _ hfaithful houter
    cases houter with
    | none => exact .pure rfl
    | @some outer n houter =>
      obtain ⟨kind, e⟩ := n
      obtain ⟨w, hw, hsort⟩ := houter
      cases kind <;> cases hsort
      · dsimp only
        rw [(hfaithful.fits hw).portrait, Meaning.ok_bind]
        refine (ClassNode.category_answers w).map ?_
        rintro category _ _ rfl
        rfl
      all_goals exact .pure rfl
  · rw [if_neg hsynthetic, if_neg hsynthetic]
    exact .pure rfl

theorem GetterNode.modifiers_answers {receiver key : SymbolKey} {w : GetterNode}
    (hw : (Entity.getter receiver key).find caches = some w)
    (hreceiver : (Entity.property receiver).At caches w.receiver) :
    Answers world caches .plain w.modifiers (world.accessorModifiers w.toAccessor receiver) :=
  .field .getterModifiers hw (Accessor.modifiers_compute hreceiver)

theorem SetterNode.modifiers_answers {receiver key : SymbolKey} {w : SetterNode}
    (hw : (Entity.setter receiver key).find caches = some w)
    (hreceiver : (Entity.property receiver).At caches w.receiver) :
    Answers world caches .plain w.modifiers (world.accessorModifiers w.toAccessor receiver) :=
  .field .setterModifiers hw (Accessor.modifiers_compute hreceiver)

theorem TypeReference.modifiers_answers {e : Entity (.node .typeReference)} {w : TypeReference}
    (hw : e.find caches = some w) :
    Answers world caches .plain w.modifiers (world.referenceModifiers w) := by
  refine .field .referenceModifiers hw ?_
  refine .bind (.inquire (.type w.type)) ?_
  rintro type _ later _ _ rfl
  cases type.shape <;> exact .pure rfl

/-! ## Comments -/

theorem FunctionNode.docString_answers {e : Entity (.node .function)} {w : FunctionNode}
    (hw : e.find caches = some w) :
    Answers world caches .plain w.docString (world.functionDocString w) := by
  refine .field .functionDocString hw ?_
  change Answers world caches _ _ (world.functionDocString w)
  unfold World.functionDocString
  by_cases hsynthetic : w.isSyntheticConstructor
  · rw [if_pos hsynthetic, if_pos hsynthetic]
    have hd : View.declaration.Shows caches (.function w) e.node := ⟨w, hw, rfl⟩
    refine .bind (Declaration.parent_answers hd) ?_
    intro node n later _ _ hnode
    cases hnode with
    | none => exact .pure rfl
    | @some node n hat =>
      obtain ⟨kind, c⟩ := n
      obtain ⟨h, hat, rfl⟩ := hat
      cases kind
      case classLike =>
        refine (Answers.resolve hat).map ?_
        rintro c _ _ ⟨_, rfl⟩
        rfl
      all_goals exact .pure rfl
  · rw [if_neg hsynthetic, if_neg hsynthetic]
    exact .pure rfl

end SymbolGraph
