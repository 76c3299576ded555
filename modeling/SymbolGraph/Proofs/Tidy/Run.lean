import SymbolGraph.Proofs.Meaning.History
import SymbolGraph.Proofs.Tidy.Offspring

/-!
# Runs of tidy sessions

A session over a table is tidy in every state that it gets into, whatever it is asked and with
whatever handles.
-/

namespace SymbolGraph

variable {σ δ α : Type} {world : World} {caches : Caches} {kind : Kind}
  {s t : SessionState ReturnTypes}

/-! ## Operations -/

theorem Wrapping.query_yields (w : Wrapping kind) :
    Yields world caches w.query ((View.found kind).of w.key) := by
  cases w with
  | file key => exact Query.file_yields key
  | classLike key => exact Query.classLike_yields key
  | function key => exact Query.function_yields key
  | property key => exact Query.property_yields key
  | getter receiver key => exact Query.getter_yields receiver key
  | setter receiver key => exact Query.setter_yields receiver key
  | valueParameter key parent => exact Query.valueParameter_yields key parent
  | typeParameter key => exact Query.typeParameter_yields key
  | typeReference type parent index => exact Query.typeReference_yields type parent index
  | resolvedType key => exact Query.resolvedType_yields key
  | annotationUse key parent => exact Query.annotationUse_yields key parent

theorem Query.item_yields {κ : Type} {keys : List κ} {position : Nat} {make : κ → Query ReturnTypes α}
    {F : Fact α} (h : ∀ key, Yields world caches (make key) F) :
    Yields world caches (Query.item keys position make) .any := by
  unfold item
  split
  · exact (h _).map fun _ _ => trivial
  · exact .pure trivial

theorem NodeKind.parent_yields (kind : NodeKind) {w : kind.Wrapper}
    (hw : caches.Issued ((Kind.node kind).idOf w) w) :
    Yields world caches (kind.parent w) .any := by
  cases kind
  case classLike => exact (LazyField.classParent.read_yields hw).to_any
  case function => exact (LazyField.functionParent.read_yields hw).to_any
  case property => exact (LazyField.propertyParent.read_yields hw).to_any
  case typeParameter => exact (LazyField.typeParameterParent.read_yields hw).to_any
  all_goals exact .pure trivial

theorem ClassNode.primaryConstructor_yields (c : ClassNode) :
    Yields world caches c.primaryConstructor .any := by
  unfold primaryConstructor
  split
  · exact .pure trivial
  · exact (Query.function_yields _).map fun _ _ => trivial

theorem Reading.query_yields (r : Reading kind α) {w : kind.Wrapper}
    (hw : caches.Issued (kind.idOf w) w) : Yields world caches (r.query w) .any := by
  cases r with
  | field f => exact (f.read_yields hw).to_any
  | location => exact .observes (NodeKind.location_observes _ w)
  | wrapper | origin => exact .pure trivial
  | parent => exact NodeKind.parent_yields _ hw
  | children => exact (NodeKind.children_yields _ hw).to_any
  | declaration scope position => exact Query.item_yields fun key => (Query.declaration_yields key).to_any
  | classCategory => exact .consult (ClassNode.category_consult w)
  | classConstructor position => exact Query.item_yields fun key => (Query.function_yields key).to_any
  | primaryConstructor => exact ClassNode.primaryConstructor_yields w
  | starProjectedType =>
    exact .bind (.inquire (.starProjectedType w.key)) fun _ _ _ =>
      (Query.resolvedType_yields _).to_any
  | functionCategory => exact .consult (FunctionNode.category_consult w)
  | parentDeclaration =>
    refine .of_genuine fun hgrows hgenuine => ?_
    obtain ⟨key, hfound⟩ := hgenuine.exists_key (hw.grows hgrows)
    exact Declaration.parentDeclaration_yields (d := .property w) hfound
  | getterReceiver => exact .consult (.resolve _)
  | setterReceiver => exact .consult (.resolve _)
  | render => exact .consult (.bind (TypeReference.record_consult w) fun _ => .pure _)
  | resolve => exact TypeReference.resolve_yields w
  | overridden | defaultArguments => exact .throw _
  | isStarProjected => exact (ResolvedType.arguments_yields hw).map fun _ _ => trivial

theorem Operation.query_yields (op : Operation α) : Yields world caches op.query .any := by
  cases op with
  | wrap w => exact w.query_yields.to_any
  | declaration key => exact (Query.declaration_yields key).to_any
  | nodeDeclaration node => exact (Query.nodeDeclaration_yields node).to_any
  | read handle r =>
    refine .bind (.resolve handle) fun _ hgenuine hw => r.query_yields ?_
    rw [hgenuine.idOf_eq hw]
    exact hw

/-! ## Walks -/

/-- What each visit keeps, and the children of each node that are read, holds after a walk. -/
theorem Visitor.walk_invariant {v : Visitor σ δ Unit} {session : Session σ}
    {P : δ × SessionState σ → Prop}
    (hvisit : ∀ (node : NodeId) (x : δ × SessionState σ), P x → P ((node.accept v).after session x))
    (hchildren : ∀ (node : NodeId) (x : δ × SessionState σ), P x →
      P (x.1, node.children.after session x.2))
    (steps : Nat) (stack : List NodeId) {x : δ × SessionState σ} (hx : P x) :
    P ((v.walk steps stack).after session x) := by
  induction steps generalizing stack x with
  | zero => cases stack <;> exact hx
  | succ steps ih =>
    cases stack with
    | nil => exact hx
    | cons node stack =>
      have hy := hvisit node x hx
      apply Action.after_bind hy
      intro _ y hrun
      rw [Action.after_of_ok hrun] at hy
      have hz := hchildren node y hy
      rw [← Visit.ofQuery_after] at hz
      apply Action.after_bind hz
      intro children z hrun
      rw [Action.after_of_ok hrun] at hz
      exact ih _ hz

/-- A session stays tidy. -/
theorem Reaches.tidy (h : Reaches world.session s t) (hs : Tidy world.table s) :
    Tidy world.table t := by
  induction h with
  | stay => exact hs
  | operate op _ ih => exact (op.query_yields _ ih (.refl _)).1
  | walk verdict steps stack visited _ ih =>
    apply Visitor.walk_invariant (P := fun x => Tidy world.table x.2) _ _ steps stack ih
    · intro node x hx
      rw [Visitor.accept_observer]
      exact hx
    · intro node x hx
      exact (node.children_yields x.2 hx (.refl _)).1
  | disturb oracle _ ih => exact ih.of_sameSession ⟨rfl, rfl⟩

end SymbolGraph
