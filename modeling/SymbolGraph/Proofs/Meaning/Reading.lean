import SymbolGraph.Proofs.Meaning.Arguments
import SymbolGraph.Proofs.Meaning.Modifiers
import SymbolGraph.Proofs.Meaning.QualifiedName
import SymbolGraph.Proofs.Meaning.Signature
import SymbolGraph.Proofs.Meaning.Types

/-!
# What readings mean

Every field that is found out once and kept answers with its meaning.
-/

namespace SymbolGraph

variable {world : World} {caches : Caches} {kind : Kind} {field : Field}

theorem LazyField.read_answers (f : LazyField kind field) {e : Entity kind} {w : kind.Wrapper}
    (hw : e.find caches = some w) :
    Answers world caches field.view (f.read w) (f.sight world e (kind.blank w)) := by
  refine .of_faithful fun hgrows hfaithful => ?_
  have hw := Entity.find_grows hw hgrows
  have hfits := hfaithful.fits hw
  cases f with
  | fileAnnotations => exact FileNode.annotations_answers hw
  | classParent => exact Declaration.parent_answers (View.wrapper_declaration hw rfl)
  | classQualifiedName => exact Declaration.qualifiedName_answers (View.wrapper_declaration hw rfl)
  | classAnnotations => exact Declaration.annotations_answers (View.wrapper_declaration hw rfl)
  | classModifiers => exact ClassNode.modifiers_answers hw
  | classTypeParameters =>
    exact .field .classTypeParameters hw (Query.typeParameters_compute _)
  | classSuperTypes =>
    exact .field .classSuperTypes hw (Query.entries_answers (View.wrapper_node hw) 0 _)
  | functionParent => exact Declaration.parent_answers (View.wrapper_declaration hw rfl)
  | functionQualifiedName =>
    exact Declaration.qualifiedName_answers (View.wrapper_declaration hw rfl)
  | functionAnnotations => exact Declaration.annotations_answers (View.wrapper_declaration hw rfl)
  | functionModifiers => exact FunctionNode.modifiers_answers hw
  | functionDocString => exact FunctionNode.docString_answers hw
  | functionReceiverType =>
    exact .field .functionReceiverType hw (Query.receiverType_compute (View.wrapper_node hw) _)
  | functionReturnType => exact FunctionNode.returnType_answers hw
  | functionParameters =>
    exact .field .functionParameters hw
      (.mapM (Query.valueParameter_answers (View.wrapper_node hw)) _)
  | functionTypeParameters =>
    exact .field .functionTypeParameters hw (Query.typeParameters_compute _)
  | propertyParent => exact Declaration.parent_answers (View.wrapper_declaration hw rfl)
  | propertyQualifiedName =>
    exact Declaration.qualifiedName_answers (View.wrapper_declaration hw rfl)
  | propertyAnnotations => exact Declaration.annotations_answers (View.wrapper_declaration hw rfl)
  | propertyModifiers => exact PropertyNode.modifiers_answers hw
  | propertyType =>
    exact .field .propertyType hw
      (Query.primaryReference_answers (.some (View.wrapper_node hw)) _)
  | propertyReceiverType =>
    exact .field .propertyReceiverType hw (Query.receiverType_compute (View.wrapper_node hw) _)
  | propertyGetter => exact PropertyNode.getter_answers hw
  | propertySetter => exact PropertyNode.setter_answers hw
  | propertyTypeParameters =>
    exact .field .propertyTypeParameters hw (Query.typeParameters_compute _)
  | typeParameterParent => exact Declaration.parent_answers (View.wrapper_declaration hw rfl)
  | typeParameterQualifiedName =>
    exact Declaration.qualifiedName_answers (View.wrapper_declaration hw rfl)
  | typeParameterAnnotations =>
    exact Declaration.annotations_answers (View.wrapper_declaration hw rfl)
  | typeParameterModifiers => exact TypeParameterNode.modifiers_answers hw
  | typeParameterBounds =>
    exact .field .typeParameterBounds hw (Query.entries_answers (View.wrapper_node hw) 0 _)
  | getterAnnotations =>
    cases e
    exact GetterNode.annotations_answers hw (GetterNode.receiver_at hfits)
  | getterModifiers =>
    cases e
    exact GetterNode.modifiers_answers hw (GetterNode.receiver_at hfits)
  | getterReturnType =>
    exact .field .getterReturnType hw
      (Query.primaryReference_answers (.some (View.wrapper_node hw)) _)
  | setterAnnotations =>
    cases e
    exact SetterNode.annotations_answers hw (SetterNode.receiver_at hfits)
  | setterModifiers =>
    cases e
    exact SetterNode.modifiers_answers hw (SetterNode.receiver_at hfits)
  | setterParameter => exact SetterNode.parameter_answers hw hfits
  | valueParameterAnnotations =>
    cases e
    cases hfits.above with | some hparent =>
    exact ValueParameterNode.annotations_answers hw hparent
  | valueParameterType =>
    exact .field .valueParameterType hw
      (Query.primaryReference_answers (.some (View.wrapper_node hw)) _)
  | referenceAnnotations => exact TypeReference.annotations_answers hw
  | referenceModifiers => exact TypeReference.modifiers_answers hw
  | referenceElement =>
    rw [LazyField.sight, TypeReference.element_blank]
    exact TypeReference.element_answers hw
  | classifierArguments => exact ClassifierReference.typeArguments_answers hw
  | callableReceiverType =>
    exact .field .callableReceiverType hw (Query.receiverType_compute (View.wrapper_node hw) _)
  | callableParameters =>
    exact .field .callableParameters hw
      (.mapM (Query.primaryReference_answers (.some (View.wrapper_node hw))) _)
  | callableReturnType =>
    exact .field .callableReturnType hw
      (Query.primaryReference_answers (.some (View.wrapper_node hw)) _)
  | annotationArguments => exact AnnotationNode.arguments_answers hw
  | annotationType => exact AnnotationNode.annotationType_answers hw
  | typeDeclaration => exact ResolvedType.declaration_answers hw
  | typeArguments => exact ResolvedType.arguments_answers hw
  | typeAnnotations => exact ResolvedType.annotations_answers hw

/-! ## Children -/

/-- The nodes in a field come after those that were found before. -/
theorem Answers.collect (f : LazyField kind field) {e : Entity kind} {w : kind.Wrapper}
    (hw : e.find caches = some w) {seen : List NodeId} {seen' : List NodeEntity}
    (hseen : View.node.list.Shows caches seen seen')
    {nodes : field.Value → List NodeId} {nodes' : field.Sight → List NodeEntity}
    (hnodes : ∀ {a b later}, field.view.Shows later a b →
      View.node.list.Shows later (nodes a) (nodes' b))
    {rest : field.Value → Query ReturnTypes (List NodeId)}
    {rest' : field.Sight → Meaning (List NodeEntity)}
    (hrest : ∀ {a b later}, e.find later = some w →
      View.node.list.Shows later (seen ++ nodes a) (seen' ++ nodes' b) →
      Answers world later View.node.list (rest a) (rest' b)) :
    Answers world caches View.node.list (f.read w >>= rest)
      (f.sight world e (kind.blank w) >>= rest') := by
  refine .bind (f.read_answers hw) ?_
  intro a b later hgrows _ hshows
  have hseen' := View.grows _ hseen hgrows
  exact hrest (Entity.find_grows hw hgrows) (View.list_append hseen' (hnodes hshows))

theorem Query.declarationNodes_answers (keys : List SymbolKey) :
    Answers world caches View.node.list (declarationNodes keys) (keys.mapM world.declaration) := by
  refine .mapM (fun key => ?_) keys
  have h : Answers world caches View.node (do return (← declaration key).node)
      (do return id (← world.declaration key)) :=
    (declaration_answers key).map View.declaration_node
  simpa using h

/-- Declarations come last. -/
theorem Answers.collect_declarations {seen : List NodeId} {seen' : List NodeEntity}
    (hseen : View.node.list.Shows caches seen seen') (keys : List SymbolKey) :
    Answers world caches View.node.list
      (do return seen ++ (← Query.declarationNodes keys))
      (do return seen' ++ (← keys.mapM world.declaration)) := by
  refine .bind (Query.declarationNodes_answers keys) ?_
  intro declarations _ later hgrows _ hdeclarations
  exact .pure (View.list_append (View.grows _ hseen hgrows) hdeclarations)

theorem FileNode.children_answers {e : Entity (.node .file)} {w : FileNode}
    (hw : e.find caches = some w) :
    Answers world caches View.node.list w.children
      (NodeKind.below world .file e ((Kind.node .file).blank w)) := by
  refine .collect .fileAnnotations hw .nil View.list_nodes fun hw hnodes => ?_
  exact .collect_declarations hnodes _

theorem ClassNode.children_answers {e : Entity (.node .classLike)} {w : ClassNode}
    (hw : e.find caches = some w) :
    Answers world caches View.node.list w.children
      (NodeKind.below world .classLike e ((Kind.node .classLike).blank w)) := by
  refine .collect .classAnnotations hw .nil View.list_nodes fun hw hnodes => ?_
  refine .collect .classTypeParameters hw hnodes View.list_nodes fun hw hnodes => ?_
  refine .collect .classSuperTypes hw hnodes View.list_nodes fun hw hnodes => ?_
  exact .collect_declarations hnodes _

theorem FunctionNode.children_answers {e : Entity (.node .function)} {w : FunctionNode}
    (hw : e.find caches = some w) :
    Answers world caches View.node.list w.children
      (NodeKind.below world .function e ((Kind.node .function).blank w)) := by
  refine .collect .functionAnnotations hw .nil View.list_nodes fun hw hnodes => ?_
  refine .collect .functionTypeParameters hw hnodes View.list_nodes fun hw hnodes => ?_
  refine .collect .functionReceiverType hw hnodes View.option_nodes fun hw hnodes => ?_
  refine .collect .functionParameters hw hnodes View.list_nodes fun hw hnodes => ?_
  refine .collect .functionReturnType hw hnodes View.wrapper_nodes fun hw hnodes => ?_
  exact .collect_declarations hnodes _

theorem PropertyNode.children_answers {e : Entity (.node .property)} {w : PropertyNode}
    (hw : e.find caches = some w) :
    Answers world caches View.node.list w.children
      (NodeKind.below world .property e ((Kind.node .property).blank w)) := by
  refine .collect .propertyAnnotations hw .nil View.list_nodes fun hw hnodes => ?_
  refine .collect .propertyTypeParameters hw hnodes View.list_nodes fun hw hnodes => ?_
  refine .collect .propertyReceiverType hw hnodes View.option_nodes fun hw hnodes => ?_
  refine .collect .propertyType hw hnodes View.wrapper_nodes fun hw hnodes => ?_
  refine .collect .propertyGetter hw hnodes View.option_nodes fun hw hnodes => ?_
  refine .collect .propertySetter hw hnodes View.option_nodes fun hw hnodes => ?_
  exact .pure hnodes

theorem GetterNode.children_answers {e : Entity (.node .getter)} {w : GetterNode}
    (hw : e.find caches = some w) :
    Answers world caches View.node.list w.children
      (NodeKind.below world .getter e ((Kind.node .getter).blank w)) := by
  refine .collect .getterAnnotations hw .nil View.list_nodes fun hw hnodes => ?_
  refine .collect .getterReturnType hw hnodes View.wrapper_nodes fun hw hnodes => ?_
  exact .pure hnodes

theorem SetterNode.children_answers {e : Entity (.node .setter)} {w : SetterNode}
    (hw : e.find caches = some w) :
    Answers world caches View.node.list w.children
      (NodeKind.below world .setter e ((Kind.node .setter).blank w)) := by
  refine .collect .setterAnnotations hw .nil View.list_nodes fun hw hnodes => ?_
  refine .collect .setterParameter hw hnodes View.wrapper_nodes fun hw hnodes => ?_
  exact .pure hnodes

theorem ValueParameterNode.children_answers {e : Entity (.node .valueParameter)}
    {w : ValueParameterNode} (hw : e.find caches = some w) :
    Answers world caches View.node.list w.children
      (NodeKind.below world .valueParameter e ((Kind.node .valueParameter).blank w)) := by
  refine .collect .valueParameterAnnotations hw .nil View.list_nodes fun hw hnodes => ?_
  refine .collect .valueParameterType hw hnodes View.wrapper_nodes fun hw hnodes => ?_
  exact .pure hnodes

theorem TypeParameterNode.children_answers {e : Entity (.node .typeParameter)}
    {w : TypeParameterNode} (hw : e.find caches = some w) :
    Answers world caches View.node.list w.children
      (NodeKind.below world .typeParameter e ((Kind.node .typeParameter).blank w)) := by
  refine .collect .typeParameterAnnotations hw .nil View.list_nodes fun hw hnodes => ?_
  refine .collect .typeParameterBounds hw hnodes View.list_nodes fun hw hnodes => ?_
  exact .pure hnodes

theorem TypeReference.children_answers {e : Entity (.node .typeReference)} {w : TypeReference}
    (hw : e.find caches = some w) :
    Answers world caches View.node.list w.children
      (NodeKind.below world .typeReference e ((Kind.node .typeReference).blank w)) := by
  refine .collect .referenceAnnotations hw .nil View.list_nodes fun hw hnodes => ?_
  refine .collect .referenceElement hw hnodes View.option_element_nodes fun hw hnodes => ?_
  exact .pure hnodes

theorem ClassifierReference.children_answers {e : Entity (.node .classifierReference)}
    {w : ClassifierReference} (hw : e.find caches = some w) :
    Answers world caches View.node.list w.children
      (NodeKind.below world .classifierReference e ((Kind.node .classifierReference).blank w)) := by
  refine .collect .classifierArguments hw .nil View.argument_nodes fun hw hnodes => ?_
  exact .pure hnodes

theorem CallableReference.children_answers {e : Entity (.node .callableReference)}
    {w : CallableReference} (hw : e.find caches = some w) :
    Answers world caches View.node.list w.children
      (NodeKind.below world .callableReference e ((Kind.node .callableReference).blank w)) := by
  refine .collect .callableReceiverType hw .nil View.option_nodes fun hw hnodes => ?_
  refine .collect .callableParameters hw hnodes View.list_nodes fun hw hnodes => ?_
  refine .collect .callableReturnType hw hnodes View.wrapper_nodes fun hw hnodes => ?_
  exact .pure hnodes

theorem AnnotationNode.children_answers {e : Entity (.node .annotationUse)} {w : AnnotationNode}
    (hw : e.find caches = some w) :
    Answers world caches View.node.list w.children
      (NodeKind.below world .annotationUse e ((Kind.node .annotationUse).blank w)) := by
  refine .collect .annotationType hw .nil View.option_nodes fun hw hnodes => ?_
  refine .collect .annotationArguments hw hnodes View.list_nodes fun hw hnodes => ?_
  exact .pure hnodes

theorem NodeKind.children_answers {kind : NodeKind} {e : Entity (.node kind)} {w : kind.Wrapper}
    (hw : e.find caches = some w) :
    Answers world caches View.node.list (kind.children w)
      (kind.below world e ((Kind.node kind).blank w)) := by
  cases kind with
  | file => exact FileNode.children_answers hw
  | classLike => exact ClassNode.children_answers hw
  | function => exact FunctionNode.children_answers hw
  | property => exact PropertyNode.children_answers hw
  | getter => exact GetterNode.children_answers hw
  | setter => exact SetterNode.children_answers hw
  | valueParameter => exact ValueParameterNode.children_answers hw
  | typeParameter => exact TypeParameterNode.children_answers hw
  | typeReference => exact TypeReference.children_answers hw
  | classifierReference => exact ClassifierReference.children_answers hw
  | callableReference => exact CallableReference.children_answers hw
  | dynamicReference => exact .pure .nil
  | annotationUse => exact AnnotationNode.children_answers hw
  | valueArgument => exact .pure .nil

end SymbolGraph
