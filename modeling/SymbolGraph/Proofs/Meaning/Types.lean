import SymbolGraph.Proofs.Meaning.Annotations

/-!
# What references and types mean
-/

namespace SymbolGraph

variable {world : World} {caches : Caches}

theorem Query.typeArguments_answers {n : Option NodeEntity} {owner : Option NodeId}
    (hat : View.node.option.Shows caches owner n) (arguments : List (TypeArgument TypeKey)) :
    Answers world caches Field.typeArguments.view (typeArguments owner arguments)
      (world.typeArguments n arguments) := by
  induction arguments generalizing caches with
  | nil => exact .pure .nil
  | cons argument arguments ih =>
    have hrest {later : Caches} (hgrows : caches.Grows later) {first : TypeArgument TypeReference}
        {first' : TypeArgument (Entity (.node .typeReference))}
        (hfirst : (View.wrapper (.node .typeReference)).argument.Shows later first first') :
        Answers world later Field.typeArguments.view
          (do return first :: (← typeArguments owner arguments))
          (do return first' :: (← world.typeArguments n arguments)) := by
      refine .bind (ih (View.grows _ hat hgrows)) ?_
      intro rest _ _ hgrows _ hrest
      exact .pure (.cons (View.grows _ hfirst hgrows) hrest)
    unfold typeArguments World.typeArguments
    cases argument with
    | star => exact hrest (.refl _) trivial
    | projection variance type =>
      refine .bind (primaryReference_answers hat type) ?_
      intro r e later hgrows _ hr
      exact hrest hgrows ⟨rfl, hr⟩

/-! ## References -/

namespace TypeReference

variable {e : Entity (.node .typeReference)} {w : TypeReference}

theorem annotations_answers (hw : e.find caches = some w) :
    Answers world caches Field.annotations.view w.annotations
      (do
        let type ← world.inquire (.type w.type)
        world.wrapAnnotations e.node type.annotations) := by
  refine .field .referenceAnnotations hw ?_
  refine .bind (.inquire (.type w.type)) ?_
  rintro type _ later hgrows _ rfl
  have hnode := View.wrapper_node (Entity.find_grows hw hgrows)
  exact Query.wrapAnnotations_answers (.some hnode) _

theorem elementOf_answers (hw : e.find caches = some w) (type : TypeRecord) :
    Answers world caches Field.element.view (w.elementOf type) (world.elementOf e w type) := by
  have hclassifier {caches : Caches} (hw : e.find caches = some w) (key : TypeKey) :
      Answers world caches Field.element.view
        (do return some (.classifier (← Query.classifierReference key w)))
        (do return some (← world.wrap (.classifierReference key e)).node) :=
    (Query.classifierReference_answers hw key).map fun hc => .some ⟨_, hc, rfl⟩
  unfold elementOf World.elementOf
  cases hshape : type.shape
  case functional =>
    exact (Query.callableReference_answers hw w.type).map fun hc => .some ⟨_, hc, rfl⟩
  case dynamic => exact (Query.dynamicReference_answers hw).map fun hd => .some ⟨_, hd, rfl⟩
  case classType => exact hclassifier hw w.type
  case flexible lower upper =>
    refine .bind (.inquire (.type lower)) ?_
    rintro bound _ later hgrows _ rfl
    cases bound.shape
    case classType => exact hclassifier (Entity.find_grows hw hgrows) lower
    all_goals exact .throw rfl
  case error | classError | typeParameter => exact .pure .none
  all_goals exact .throw rfl

theorem element_blank (e : Entity (.node .typeReference)) (w : TypeReference) :
    world.element e ((Kind.node .typeReference).blank w) = world.element e w := by
  have hparent : (TypeReference.parent ((Kind.node .typeReference).blank w)).isNone =
      w.parent.isNone := Option.isNone_map
  unfold World.element
  rw [hparent]
  rfl

theorem element_answers (hw : e.find caches = some w) :
    Answers world caches Field.element.view w.element (world.element e w) := by
  have hfield : LazyField.referenceElement.sight world e ((Kind.node .typeReference).blank w) =
      world.element e w := element_blank e w
  rw [← hfield]
  refine .field .referenceElement hw ?_
  rw [hfield, World.element]
  by_cases hwritten : w.parent.isNone ∨ w.origin = .synthetic
  · rw [if_pos hwritten, if_pos hwritten]
    exact .pure .none
  · rw [if_neg hwritten, if_neg hwritten]
    refine .bind (.inquire (.type w.type)) ?_
    rintro type _ later hgrows _ rfl
    exact elementOf_answers (Entity.find_grows hw hgrows) type

theorem render_answers (w : TypeReference) :
    Answers world caches .plain w.render (world.render w) := by
  refine (Answers.inquire (.type w.type)).map ?_
  rintro type _ _ rfl
  rfl

theorem resolve_answers (w : TypeReference) :
    Answers world caches (View.wrapper .resolvedType).option w.resolve (world.resolve w) := by
  refine .bind (.inquire (.type w.type)) ?_
  rintro type _ later _ _ rfl
  cases type.shape
  case error | classError => exact .pure .none
  all_goals
    refine .bind_ok (.glance (.classifier w.type)) ?_
    rintro found later _ _ rfl
    dsimp only
    cases world.glance (.classifier w.type) with
    | none => exact .pure .none
    | some _ => exact (Query.resolvedType_answers w.type).map fun ht => .some ht

end TypeReference

/-! ## Elements -/

theorem ClassifierReference.typeArguments_answers {e : Entity (.node .classifierReference)}
    {w : ClassifierReference} (hw : e.find caches = some w) :
    Answers world caches Field.typeArguments.view w.typeArguments
      (world.typeArguments e.node w.arguments) :=
  .field .classifierArguments hw
    (Query.typeArguments_answers (.some (View.wrapper_node hw)) w.arguments)

/-! ## Resolved types -/

namespace ResolvedType

variable {e : Entity .resolvedType} {w : ResolvedType}

theorem annotations_answers (hw : e.find caches = some w) :
    Answers world caches Field.annotations.view w.annotations
      (world.wrapAnnotations none w.type.annotations) :=
  .field .typeAnnotations hw (Query.wrapAnnotations_answers .none _)

theorem declaration_answers (hw : e.find caches = some w) :
    Answers world caches Field.declaration.view w.declaration (world.typeDeclaration w) := by
  refine .field .typeDeclaration hw ?_
  refine .bind_ok (.glance (.classifier w.key)) ?_
  rintro found later _ _ rfl
  change Answers world later _ _ (world.typeDeclaration w)
  unfold World.typeDeclaration
  cases world.glance (.classifier w.key) with
  | none => exact .throw rfl
  | some symbol => exact Query.declaration_answers symbol

theorem argumentShape_answers (w : ResolvedType) :
    Answers world caches .plain w.argumentShape (world.argumentShape w) := by
  unfold argumentShape World.argumentShape
  cases w.type.shape
  case flexible lower upper =>
    refine (Answers.inquire (.type lower)).map ?_
    rintro bound _ _ rfl
    rfl
  case definitelyNotNull inner =>
    refine (Answers.inquire (.type inner)).map ?_
    rintro bound _ _ rfl
    rfl
  all_goals exact .pure rfl

theorem arguments_answers (hw : e.find caches = some w) :
    Answers world caches Field.typeArguments.view w.arguments (world.resolvedArguments w) := by
  refine .field .typeArguments hw ?_
  refine .bind (argumentShape_answers w) ?_
  rintro shape _ later _ _ rfl
  cases shape
  case classType className arguments => exact Query.typeArguments_answers .none arguments
  case functional f => exact Query.typeArguments_answers .none f.arguments
  all_goals exact .pure .nil

end ResolvedType

end SymbolGraph
