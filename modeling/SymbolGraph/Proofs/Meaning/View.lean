import Mathlib.Data.List.Forall2
import Mathlib.Data.Option.Basic
import SymbolGraph.Proofs.Meaning.Graph

/-!
# Views

How a value that holds handles shows one that holds entities. What is shown in some caches
is shown in all later ones.
-/

namespace SymbolGraph

variable {α β γ : Type}

structure View (α β : Type) where
  Shows : Caches → α → β → Prop
  grows : ∀ {caches later : Caches} {a : α} {b : β}, Shows caches a b → caches.Grows later →
    Shows later a b

/-- A wrapper as the element of a type reference, if it is one. -/
def NodeKind.element? : (kind : NodeKind) → kind.Wrapper → Option ReferenceElement
  | .classifierReference, (w : ClassifierReference) => some (.classifier w)
  | .callableReference, (w : CallableReference) => some (.callable w)
  | .dynamicReference, (w : DynamicReference) => some (.dynamic w)
  | _, _ => none

namespace View

/-- A value without handles. -/
def plain : View α α where
  Shows _ a b := a = b
  grows h _ := h

def wrapper (kind : Kind) : View kind.Wrapper (Entity kind) where
  Shows caches w e := e.find caches = some w
  grows h hgrows := Entity.find_grows h hgrows

def node : View NodeId NodeEntity where
  Shows caches id n := n.At caches id
  grows h hgrows := h.grows hgrows

/-- A wrapper that is looked at as something more particular. -/
def partial? (as? : (kind : NodeKind) → kind.Wrapper → Option α) : View α NodeEntity where
  Shows caches a n := ∃ w, n.entity.find caches = some w ∧ as? n.kind w = some a
  grows h hgrows := by
    obtain ⟨w, hw, ha⟩ := h
    exact ⟨w, Entity.find_grows hw hgrows, ha⟩

def declaration : View Declaration NodeEntity := partial? NodeKind.declaration?

def element : View ReferenceElement NodeEntity := partial? NodeKind.element?

/-- What is shown under another name. -/
def comap (v : View α β) (f : γ → β) : View α γ where
  Shows caches a c := v.Shows caches a (f c)
  grows h hgrows := v.grows h hgrows

def option (v : View α β) : View (Option α) (Option β) where
  Shows caches := Option.Rel (v.Shows caches)
  grows h hgrows := by
    cases h with
    | some h => exact .some (v.grows h hgrows)
    | none => exact .none

def list (v : View α β) : View (List α) (List β) where
  Shows caches := List.Forall₂ (v.Shows caches)
  grows h hgrows := h.imp fun _ _ hab => v.grows hab hgrows

def argument (v : View α β) : View (TypeArgument α) (TypeArgument β) where
  Shows caches
    | .star, .star => True
    | .projection variance a, .projection variance' b => variance = variance' ∧ v.Shows caches a b
    | _, _ => False
  grows {_ _ a b} h hgrows := by
    cases a <;> cases b
    · trivial
    · exact h
    · exact h
    · exact ⟨h.1, v.grows h.2 hgrows⟩

/-- The error of a session shows a failure if it has the words for it. -/
def failure : View GraphError Failure where
  Shows caches e
    | .plain e' => e = e'
    | .noParameter property => ∃ id, (Entity.property property).At caches id ∧
      e = .inconsistency s!"setter of {id.node.idText}" "setter with a value parameter" "no parameter"
    | .noClass context parent => ∃ id, node.option.Shows caches id parent ∧
      e = .inconsistency context "constructor declared in a class" (NodeId.optionText id)
    | .nothing => False
  grows {_ _ e f} h hgrows := by
    cases f with
    | plain => exact h
    | noParameter =>
      obtain ⟨id, hid, he⟩ := h
      exact ⟨id, hid.grows hgrows, he⟩
    | noClass =>
      obtain ⟨id, hid, he⟩ := h
      exact ⟨id, node.option.grows hid hgrows, he⟩
    | nothing => exact h

/-- The outcome of a query shows a meaning. -/
inductive Outcome (v : View α β) :
    EStateM.Result GraphError (SessionState ReturnTypes) α → Meaning β → Prop
  | ok {a : α} {b : β} {s : SessionState ReturnTypes} : v.Shows s.caches a b →
    Outcome v (.ok a s) (.ok b)
  | error {e : GraphError} {f : Failure} {s : SessionState ReturnTypes} :
    failure.Shows s.caches e f → Outcome v (.error e s) (.error f)

/-! ## Exact views -/

variable {v : View α β} {caches : Caches}

/-- A value shows at most one thing, and no other value shows it. -/
structure Exact (caches : Caches) (v : View α β) : Prop where
  shown : ∀ {a b b'}, v.Shows caches a b → v.Shows caches a b' → b = b'
  showing : ∀ {a a' b}, v.Shows caches a b → v.Shows caches a' b → a = a'

namespace Exact

theorem plain : (plain : View α α).Exact caches where
  shown h h' := h.symm.trans h'
  showing h h' := h.trans h'.symm

theorem wrapper (wf : caches.WellFormed) (kind : Kind) : (wrapper kind).Exact caches where
  shown h h' := Entity.At.injective wf (Entity.at_of_find h) (Entity.at_of_find h')
  showing h h' := Option.some.inj (h.symm.trans h')

theorem node (wf : caches.WellFormed) : node.Exact caches where
  shown h h' := NodeEntity.At.injective wf h h'
  showing h h' := by
    obtain ⟨_, ⟨w, hw, rfl⟩, rfl⟩ := h
    obtain ⟨_, ⟨w', hw', rfl⟩, rfl⟩ := h'
    cases Option.some.inj (hw.symm.trans hw')
    rfl

theorem partial? {as? : (kind : NodeKind) → kind.Wrapper → Option α}
    (h : ∀ {a n n'}, (View.partial? as?).Shows caches a n → (View.partial? as?).Shows caches a n' →
      n = n') : (View.partial? as?).Exact caches where
  shown := h
  showing h h' := by
    obtain ⟨w, hw, ha⟩ := h
    obtain ⟨w', hw', ha'⟩ := h'
    cases Option.some.inj (hw.symm.trans hw')
    exact Option.some.inj (ha.symm.trans ha')

theorem option (h : v.Exact caches) : v.option.Exact caches where
  shown hab hab' := by
    cases hab <;> cases hab'
    · rename_i h₁ _ h₂
      exact congrArg some (h.shown h₁ h₂)
    · rfl
  showing hab hab' := by
    cases hab <;> cases hab'
    · rename_i h₁ _ h₂
      exact congrArg some (h.showing h₁ h₂)
    · rfl

theorem list (h : v.Exact caches) : v.list.Exact caches where
  shown hab hab' := by
    rename_i as bs bs'
    induction hab generalizing bs' with
    | nil =>
      cases hab'
      rfl
    | cons hfirst _ ih =>
      cases hab' with | cons hfirst' hrest' =>
      rw [h.shown hfirst hfirst', ih hrest']
  showing hab hab' := by
    rename_i as as' bs
    induction hab generalizing as' with
    | nil =>
      cases hab'
      rfl
    | cons hfirst _ ih =>
      cases hab' with | cons hfirst' hrest' =>
      rw [h.showing hfirst hfirst', ih hrest']

theorem argument (h : v.Exact caches) : v.argument.Exact caches where
  shown {a b b'} hab hab' := by
    cases a <;> cases b <;> cases b'
    -- A star shows nothing but a star.
    case projection.projection.projection =>
      rw [← hab.1, ← hab'.1, h.shown hab.2 hab'.2]
    all_goals first | rfl | exact False.elim hab | exact False.elim hab'
  showing {a a' b} hab hab' := by
    cases a <;> cases a' <;> cases b
    case projection.projection.projection =>
      rw [hab.1, hab'.1, h.showing hab.2 hab'.2]
    all_goals first | rfl | exact False.elim hab | exact False.elim hab'

end Exact

/-! ## Parts -/

/-- What is shown item by item can be seen item by item from elsewhere. -/
theorem list_map {v : View α β} {v' : View γ δ} {f : α → γ} {g : β → δ} {as : List α}
    {bs : List β} (h : v.list.Shows caches as bs)
    (hf : ∀ {a b}, v.Shows caches a b → v'.Shows caches (f a) (g b)) :
    v'.list.Shows caches (as.map f) (bs.map g) := by
  induction h with
  | nil => exact .nil
  | cons hab _ ih => exact .cons (hf hab) ih

theorem list_append {as as' : List α} {bs bs' : List β} (h : v.list.Shows caches as bs)
    (h' : v.list.Shows caches as' bs') : v.list.Shows caches (as ++ as') (bs ++ bs') := by
  induction h with
  | nil => exact h'
  | cons hab _ ih => exact .cons hab ih

theorem option_toList {a : Option α} {b : Option β} (h : v.option.Shows caches a b) :
    v.list.Shows caches a.toList b.toList := by
  cases h with
  | some h => exact .cons h .nil
  | none => exact .nil

theorem wrapper_node {kind : NodeKind} {w : kind.Wrapper} {e : Entity (.node kind)}
    (h : (wrapper (.node kind)).Shows caches w e) :
    node.Shows caches ((Kind.node kind).idOf w).node e.node :=
  ⟨_, Entity.at_of_find h, rfl⟩

theorem list_nodes {kind : NodeKind} {ws : List kind.Wrapper} {es : List (Entity (.node kind))}
    (h : (wrapper (.node kind)).list.Shows caches ws es) :
    node.list.Shows caches (ws.map fun w => ((Kind.node kind).idOf w).node)
      (es.map fun e => e.node) :=
  list_map h wrapper_node

theorem list_singleton {a : α} {b : β} (h : v.Shows caches a b) : v.list.Shows caches [a] [b] :=
  .cons h .nil

theorem wrapper_nodes {kind : NodeKind} {w : kind.Wrapper} {e : Entity (.node kind)}
    (h : (wrapper (.node kind)).Shows caches w e) :
    node.list.Shows caches [((Kind.node kind).idOf w).node] [e.node] :=
  list_singleton (wrapper_node h)

theorem option_nodes {kind : NodeKind} {w : Option kind.Wrapper} {e : Option (Entity (.node kind))}
    (h : (wrapper (.node kind)).option.Shows caches w e) :
    node.list.Shows caches (w.toList.map fun w => ((Kind.node kind).idOf w).node)
      (e.toList.map fun e => e.node) :=
  list_nodes (option_toList h)

/-- Stars are left out on both sides. -/
theorem list_types {as : List (TypeArgument α)} {bs : List (TypeArgument β)}
    (h : v.argument.list.Shows caches as bs) :
    v.list.Shows caches (as.filterMap TypeArgument.type?) (bs.filterMap TypeArgument.type?) := by
  induction h with
  | nil => exact .nil
  | @cons a b _ _ hab _ ih =>
    cases a <;> cases b
    · exact ih
    · cases hab
    · cases hab
    · exact .cons hab.2 ih

theorem argument_nodes {kind : NodeKind} {ws : List (TypeArgument kind.Wrapper)}
    {es : List (TypeArgument (Entity (.node kind)))}
    (h : (wrapper (.node kind)).argument.list.Shows caches ws es) :
    node.list.Shows caches
      ((ws.filterMap TypeArgument.type?).map fun w => ((Kind.node kind).idOf w).node)
      ((es.filterMap TypeArgument.type?).map fun e => e.node) :=
  list_nodes (list_types h)

theorem wrapper_declaration {kind : NodeKind} {w : kind.Wrapper} {e : Entity (.node kind)}
    {d : Declaration} (h : (wrapper (.node kind)).Shows caches w e)
    (hd : kind.declaration? w = some d) : declaration.Shows caches d e.node :=
  ⟨w, h, hd⟩

theorem declaration_node {d : Declaration} {n : NodeEntity} (h : declaration.Shows caches d n) :
    node.Shows caches d.node n := by
  obtain ⟨kind, e⟩ := n
  obtain ⟨w, hw, hd⟩ := h
  cases kind <;> cases hd <;> exact wrapper_node hw

theorem element_node {r : ReferenceElement} {n : NodeEntity} (h : element.Shows caches r n) :
    node.Shows caches r.node n := by
  obtain ⟨kind, e⟩ := n
  obtain ⟨w, hw, hr⟩ := h
  cases kind <;> cases hr <;> exact wrapper_node hw

theorem Exact.declaration (wf : caches.WellFormed) : declaration.Exact caches :=
  .partial? fun h h' => (Exact.node wf).shown (declaration_node h) (declaration_node h')

theorem Exact.element (wf : caches.WellFormed) : element.Exact caches :=
  .partial? fun h h' => (Exact.node wf).shown (element_node h) (element_node h')

theorem option_element_nodes {r : Option ReferenceElement} {n : Option NodeEntity}
    (h : element.option.Shows caches r n) :
    node.list.Shows caches (r.toList.map ReferenceElement.node) n.toList := by
  cases h with
  | none => exact .nil
  | some h => exact list_singleton (element_node h)

end View

end SymbolGraph
