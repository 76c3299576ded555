import SymbolGraph.Proofs.Meaning.Containment

/-!
# What annotations mean

The annotations of a node, and the arguments of an annotation.
-/

namespace SymbolGraph

variable {world : World} {caches : Caches}

/-! ## Annotations of nodes -/

namespace Query

theorem wrapAnnotations_answers {n : Option NodeEntity} {bearer : Option NodeId}
    (hat : View.node.option.Shows caches bearer n) (keys : List AnnotationKey) :
    Answers world caches Field.annotations.view (wrapAnnotations bearer keys)
      (world.wrapAnnotations n keys) :=
  .mapM (annotationUse_answers hat) keys

theorem selectAnnotations_answers {n : NodeEntity} {bearer : NodeId} (hat : n.At caches bearer)
    (wanted : Option UseSiteTarget → Bool) (keys : List AnnotationKey) :
    Answers world caches Field.annotations.view (selectAnnotations bearer wanted keys)
      (world.selectAnnotations n wanted keys) := by
  induction keys generalizing caches with
  | nil => exact .pure .nil
  | cons key keys ih =>
    refine .bind (.inquire (.annotationUse key)) ?_
    rintro record _ later hgrows _ rfl
    have hat := hat.grows hgrows
    split
    · refine .bind (annotationUse_answers (.some hat) key) ?_
      intro first _ later hgrows _ hfirst
      refine .bind (ih (hat.grows hgrows)) ?_
      intro rest _ _ hgrows _ hrest
      exact .pure (.cons (View.grows _ hfirst hgrows) hrest)
    · exact ih hat

end Query

theorem FileNode.annotations_answers {e : Entity (.node .file)} {w : FileNode}
    (hw : e.find caches = some w) :
    Answers world caches Field.annotations.view w.annotations
      (world.wrapAnnotations e.node w.file.annotations) :=
  .field .fileAnnotations hw (Query.wrapAnnotations_answers (.some (View.wrapper_node hw)) _)

theorem Declaration.annotations_answers {d : Declaration} {n : NodeEntity}
    (hd : View.declaration.Shows caches d n) :
    Answers world caches Field.annotations.view d.annotations
      (world.declarationAnnotations d.blank) := by
  refine .of_faithful fun hgrows hfaithful => ?_
  have hd := View.declaration.grows hd hgrows
  have hnode := View.declaration_node hd
  cases entity_of_shows hfaithful hd
  obtain ⟨w, hw, hsort⟩ := hd
  cases d <;> cases hsort
  · exact .field .classAnnotations hw (Query.selectAnnotations_answers hnode _ _)
  · exact .field .functionAnnotations hw (Query.selectAnnotations_answers hnode _ _)
  · exact .field .propertyAnnotations hw (Query.selectAnnotations_answers hnode _ _)
  · exact .field .typeParameterAnnotations hw (Query.selectAnnotations_answers hnode _ _)

/-- The property of an accessor is seen with its portrait. -/
theorem Accessor.annotations_compute {a : Accessor} {n : NodeEntity} {bearer : NodeId}
    {receiver : SymbolKey} (hat : n.At caches bearer)
    (hreceiver : (Entity.property receiver).At caches a.receiver)
    (excluded pulled : UseSiteTarget) :
    Answers world caches Field.annotations.view
      (do
        let own ← Query.selectAnnotations bearer (· ≠ some excluded) a.symbol.annotations
        let property ← Query.resolve a.receiver
        let pulled ← Query.selectAnnotations bearer (· = some pulled) property.symbol.annotations
        return own ++ pulled)
      (world.accessorAnnotations a n receiver excluded pulled) := by
  refine .bind (Query.selectAnnotations_answers hat _ _) ?_
  intro own _ later hgrows _ hown
  refine .bind (.resolve (hreceiver.grows hgrows)) ?_
  rintro property _ later' hgrows' _ ⟨_, rfl⟩
  have hat := (hat.grows hgrows).grows hgrows'
  have hown := View.grows _ hown hgrows'
  refine .bind (Query.selectAnnotations_answers hat _ _) ?_
  intro pulled _ later'' hgrows _ hpulled
  exact .pure (View.list_append (View.grows _ hown hgrows) hpulled)

theorem GetterNode.annotations_answers {receiver key : SymbolKey} {w : GetterNode}
    (hw : (Entity.getter receiver key).find caches = some w)
    (hreceiver : (Entity.property receiver).At caches w.receiver) :
    Answers world caches Field.annotations.view w.annotations
      (world.accessorAnnotations w.toAccessor (Entity.getter receiver key).node receiver
        .setterParameter .getter) :=
  .field .getterAnnotations hw
    (Accessor.annotations_compute (View.wrapper_node hw) hreceiver .setterParameter .getter)

theorem SetterNode.annotations_answers {receiver key : SymbolKey} {w : SetterNode}
    (hw : (Entity.setter receiver key).find caches = some w)
    (hreceiver : (Entity.property receiver).At caches w.receiver) :
    Answers world caches Field.annotations.view w.annotations
      (world.accessorAnnotations w.toAccessor (Entity.setter receiver key).node receiver .getter
        .setter) :=
  .field .setterAnnotations hw
    (Accessor.annotations_compute (View.wrapper_node hw) hreceiver .getter .setter)

theorem ValueParameterNode.annotations_answers {key : SymbolKey} {kind : NodeKind}
    {parent : Entity (.node kind)} {w : ValueParameterNode}
    (hw : (Entity.valueParameter key parent).find caches = some w)
    (hparent : parent.node.At caches w.parent) :
    Answers world caches Field.annotations.view w.annotations
      (world.parameterAnnotations w (Entity.valueParameter key parent).node parent) := by
  refine .field .valueParameterAnnotations hw ?_
  have hbearer := View.wrapper_node hw
  refine .bind (Query.wrapAnnotations_answers (.some hbearer) _) ?_
  intro own _ later hgrows hfaithful hown
  have hbearer := View.node.grows hbearer hgrows
  obtain ⟨h, hat, hnode⟩ := hparent.grows hgrows
  rw [← hnode]
  cases parent
  case setter receiver key =>
    refine .bind_ok (.resolve_wrapper hat) ?_
    intro setter later' hgrows' hfaithful' hsetter
    refine .bind (.resolve (SetterNode.receiver_at (hfaithful'.fits hsetter))) ?_
    rintro property _ later'' hgrows'' _ ⟨_, rfl⟩
    have hgrows := hgrows'.trans hgrows''
    refine .bind (Query.selectAnnotations_answers (hbearer.grows hgrows) _ _) ?_
    intro pulled _ _ hgrows' _ hpulled
    have hown := View.grows _ hown (hgrows.trans hgrows')
    exact .pure (View.list_append hown hpulled)
  all_goals exact .pure hown

end SymbolGraph
