import SymbolGraph.Proofs.Meaning.World
import SymbolGraph.Proofs.Walk.Lasting
import SymbolGraph.Proofs.Walk.Traversal

/-!
# The order of a walk

Finding the children of a node changes the session, so the tree that a walk goes through comes about
only in the course of it. Still it is one tree: what a node is found to have as children when it is
its turn is what it has at the end, and the nodes are shown to the visitor in the preorder of the tree
that the session holds then.
-/

namespace SymbolGraph

variable {σ δ α β : Type} {session : Session σ} {node : NodeId}

/-! ## Visits that are noted down -/

/-- A visit with the nodes that were visited before. The node is noted down whether the visit succeeds
or fails. -/
def Visit.noted (node : NodeId) (visit : Visit σ δ α) : Visit σ (List NodeId × δ) α :=
  fun session x =>
    match visit session (x.1.2, x.2) with
    | .ok a (data, s) => .ok a ((x.1.1 ++ [node], data), s)
    | .error e (data, s) => .error e ((x.1.1 ++ [node], data), s)

namespace Visitor

/-- The same visitor, with a record of the nodes that it is shown, the earliest first. -/
def recorded (v : Visitor σ δ Unit) : Visitor σ (List NodeId × δ) Unit where
  other node := (v.other node).noted node
  declaration d := (v.declaration d).noted d.node
  file w := (v.file w).noted w.id.node
  classLike w := (v.classLike w).noted w.id.node
  function w := (v.function w).noted w.id.node
  property w := (v.property w).noted w.id.node
  typeParameter w := (v.typeParameter w).noted w.id.node
  getter w := (v.getter w).noted w.id.node
  setter w := (v.setter w).noted w.id.node
  valueParameter w := (v.valueParameter w).noted w.id.node
  typeReference w := (v.typeReference w).noted w.id.node
  classifierReference w := (v.classifierReference w).noted w.id.node
  callableReference w := (v.callableReference w).noted w.id.node
  dynamicReference w := (v.dynamicReference w).noted w.id.node
  annotationUse w := (v.annotationUse w).noted w.id.node
  valueArgument w := (v.valueArgument w).noted w.id.node

theorem recorded_visit (v : Visitor σ δ Unit) (kind : NodeKind) (w : kind.Wrapper) :
    v.recorded.visit kind w = (v.visit kind w).noted ((Kind.node kind).idOf w).node := by
  cases kind <;> rfl

end Visitor

/-! ## The record does not matter -/

/-- An outcome without the record. -/
def Visit.forget : EStateM.Result GraphError ((List NodeId × δ) × SessionState σ) α →
    EStateM.Result GraphError (δ × SessionState σ) α
  | .ok a x => .ok a (x.1.2, x.2)
  | .error e x => .error e (x.1.2, x.2)

/-- The second visit is the first one without its record. -/
def Mirrors (visit : Visit σ (List NodeId × δ) α) (plain : Visit σ δ α) : Prop :=
  ∀ session x, Visit.forget (visit session x) = plain session (x.1.2, x.2)

namespace Mirrors

theorem pure (a : α) : Mirrors (pure a : Visit σ (List NodeId × δ) α) (pure a) := fun _ _ => rfl

theorem bind {visit : Visit σ (List NodeId × δ) α} {plain : Visit σ δ α}
    {f : α → Visit σ (List NodeId × δ) β} {g : α → Visit σ δ β} (h : Mirrors visit plain)
    (hf : ∀ a, Mirrors (f a) (g a)) : Mirrors (visit >>= f) (plain >>= g) := by
  intro session x
  have hx := h session x
  cases hrun : visit session x with
  | ok a y =>
    rw [hrun] at hx
    rw [Action.bind_of_ok hrun, Action.bind_of_ok hx.symm]
    exact hf a session y
  | error e y =>
    rw [hrun] at hx
    rw [Action.bind_of_error hrun, Action.bind_of_error hx.symm]
    rfl

theorem ofQuery (q : Query σ α) :
    Mirrors (Visit.ofQuery q : Visit σ (List NodeId × δ) α) (Visit.ofQuery q) := by
  intro session x
  simp only [Visit.ofQuery]
  cases q session x.2 <;> rfl

theorem noted (node : NodeId) (visit : Visit σ δ α) : Mirrors (visit.noted node) visit := by
  intro session x
  simp only [Visit.noted]
  cases visit session (x.1.2, x.2) <;> rfl

theorem accept (v : Visitor σ δ Unit) (node : NodeId) :
    Mirrors (node.accept v.recorded) (node.accept v) := by
  refine .bind (.ofQuery _) fun w => ?_
  rw [v.recorded_visit]
  exact .noted _ _

/-- A walk is the same with a record. -/
theorem walk (v : Visitor σ δ Unit) (steps : Nat) (stack : List NodeId) :
    Mirrors (v.recorded.walk steps stack) (v.walk steps stack) := by
  induction steps generalizing stack with
  | zero => cases stack <;> exact .pure _
  | succ steps ih =>
    cases stack with
    | nil => exact .pure _
    | cons node stack => exact .bind (accept v node) fun _ => .bind (.ofQuery _) fun _ => ih _

theorem of_ok {visit : Visit σ (List NodeId × δ) α} {plain : Visit σ δ α} (h : Mirrors visit plain)
    (visited : List NodeId) {data data' : δ} {s t : SessionState σ} {a : α}
    (hok : plain session (data, s) = .ok a (data', t)) :
    ∃ visited', visit session ((visited, data), s) = .ok a ((visited', data'), t) := by
  have hx := h session ((visited, data), s)
  rw [hok] at hx
  cases hrun : visit session ((visited, data), s) <;> rw [hrun] at hx <;> cases hx
  exact ⟨_, rfl⟩

theorem of_error {visit : Visit σ (List NodeId × δ) α} {plain : Visit σ δ α} (h : Mirrors visit plain)
    (visited : List NodeId) {data data' : δ} {s t : SessionState σ} {e : GraphError}
    (herr : plain session (data, s) = .error e (data', t)) :
    ∃ visited', visit session ((visited, data), s) = .error e ((visited', data'), t) := by
  have hx := h session ((visited, data), s)
  rw [herr] at hx
  cases hrun : visit session ((visited, data), s) <;> rw [hrun] at hx <;> cases hx
  exact ⟨_, rfl⟩

end Mirrors

/-! ## Preorder -/

/-- The nodes under some nodes in one state of a session, each before its children. Reading the
children leaves the state as it is. -/
inductive Preorder (session : Session σ) (s : SessionState σ) : List NodeId → List NodeId → Prop
  | nil : Preorder session s [] []
  | cons {node : NodeId} {rest children below after : List NodeId} :
    node.children session s = .ok children s → Preorder session s children below →
    Preorder session s rest after → Preorder session s (node :: rest) (node :: (below ++ after))

namespace Preorder

variable {s : SessionState σ} {nodes rest order : List NodeId}

theorem unique (h : Preorder session s nodes order) {other : List NodeId}
    (h' : Preorder session s nodes other) : order = other := by
  induction h generalizing other with
  | nil =>
    cases h'
    rfl
  | cons hchildren _ _ ihbelow ihafter =>
    cases h' with | cons hchildren' hbelow hafter =>
    cases hchildren.symm.trans hchildren'
    rw [ihbelow hbelow, ihafter hafter]

theorem of_append (h : Preorder session s (nodes ++ rest) order) :
    ∃ below after, order = below ++ after ∧ Preorder session s nodes below ∧
      Preorder session s rest after := by
  induction nodes generalizing order with
  | nil => exact ⟨[], order, rfl, .nil, h⟩
  | cons node nodes ih =>
    cases h with | cons hchildren hbelow hnodes =>
    obtain ⟨_, _, rfl, hnodes, hrest⟩ := ih hnodes
    exact ⟨_, _, by rw [List.cons_append, List.append_assoc], .cons hchildren hbelow hnodes, hrest⟩

end Preorder

/-! ## Walks in preorder -/

theorem Visit.Paced.noted {visit : Visit σ δ α} (h : visit.Paced) (node : NodeId) :
    (visit.noted node).Paced := by
  intro session x
  have hx := h session (x.1.2, x.2)
  simp only [Action.after, Visit.noted] at hx ⊢
  cases hrun : visit session (x.1.2, x.2) <;> rw [hrun] at hx <;> exact hx

namespace Visitor

variable {v : Visitor σ δ Unit} {x y : (List NodeId × δ) × SessionState σ} {children : List NodeId}

theorem recorded_paced (hv : ∀ kind w, (v.visit kind w).Paced) (kind : NodeKind)
    (w : kind.Wrapper) : (v.recorded.visit kind w).Paced := by
  rw [recorded_visit]
  exact (hv kind w).noted _

/-- A node that was entered is the last one in the record. -/
theorem recorded_of_enter (wf : x.2.caches.WellFormed)
    (h : v.recorded.enter node session x = .ok children y) :
    y.1.1 = x.1.1 ++ [node] ∧ ∃ s, node.children session s = .ok children y.2 := by
  obtain ⟨_, z, haccept, hchildren⟩ := Action.bind_eq_ok h
  have hdata : y.1 = z.1 := by rw [Visit.eq_of_ofQuery hchildren]
  refine ⟨?_, z.2, Visit.ofQuery_eq_ok hchildren⟩
  obtain ⟨w, hresolve, hvisit⟩ := NodeId.accept_eq_ok haccept
  have hid : ((Kind.node node.kind).idOf w).node = node :=
    congrArg Handle.node (wf.idOf_eq (Query.resolve_eq_ok hresolve).1)
  rw [recorded_visit, hid] at hvisit
  simp only [Visit.noted] at hvisit
  rw [hdata]
  split at hvisit <;> cases hvisit
  rfl

end Visitor

section

variable {table : SymbolTable} {session : Session ReturnTypes} {v : Visitor ReturnTypes δ Unit}

/-- A walk shows the nodes in preorder, also to a visitor that has requests of its own. -/
theorem Visitor.recorded_walk_preorder (hsession : session.oracle = table.oracle)
    (hv : ∀ kind w, (v.visit kind w).Paced) {steps : Nat} {stack : List NodeId}
    {x y : (List NodeId × δ) × SessionState ReturnTypes} (wf : x.2.caches.WellFormed)
    (h : v.recorded.walk steps stack session x = .ok [] y) :
    ∃ order, y.1.1 = x.1.1 ++ order ∧ Preorder session y.2 stack order := by
  induction steps generalizing stack x with
  | zero =>
    cases stack <;> cases h
    exact ⟨[], (List.append_nil _).symm, .nil⟩
  | succ steps ih =>
    cases stack with
    | nil =>
      cases h
      exact ⟨[], (List.append_nil _).symm, .nil⟩
    | cons node stack =>
      rw [walk_succ] at h
      obtain ⟨children, z, henter, hwalk⟩ := Action.bind_eq_ok h
      obtain ⟨hnode, s, hchildren⟩ := recorded_of_enter wf henter
      have hfirst := enter_paced (recorded_paced hv) node session x
      have hrest := walk_paced (recorded_paced hv) steps (children ++ stack) session z
      rw [Action.after_of_ok henter] at hfirst
      rw [Action.after_of_ok hwalk] at hrest
      obtain ⟨order, horder, hpreorder⟩ := ih (hfirst.wellFormed wf) hwalk
      obtain ⟨below, after, rfl, hbelow, hafter⟩ := hpreorder.of_append
      -- The children are still the same in the end.
      have hagain := (node.children_lasting hsession).again hchildren hrest.grows
      refine ⟨node :: (below ++ after), ?_, .cons hagain hbelow hafter⟩
      rw [horder, hnode, List.append_assoc, List.singleton_append]

/-- A walk that comes to an end has shown the nodes in the preorder of the tree that the session holds
in the end. A walk that fails has shown those nodes that a recursive traversal from the same state
shows before it fails, and it fails in the same way. -/
theorem walk_preorder {world : World} {types : ReturnTypes} {s : SessionState ReturnTypes}
    (hs : Reaches world.session (.start types) s) (hv : v.Quiet) (root : NodeId) (data : δ)
    (steps : Nat) :
    (∀ {data' t}, v.walk steps [root] world.session (data, s) = .ok [] (data', t) →
      ∃ visited,
        v.recorded.walk steps [root] world.session (([], data), s) = .ok [] ((visited, data'), t) ∧
        Preorder world.session t [root] visited) ∧
    ∀ {e data' t}, v.walk steps [root] world.session (data, s) = .error e (data', t) →
      ∃ visited,
        v.recorded.walk steps [root] world.session (([], data), s) =
          .error e ((visited, data'), t) ∧
        ∀ result, v.recorded.Traverses world.session [root] (([], data), s) result ↔
          result = .error e ((visited, data'), t) := by
  have wf : s.caches.WellFormed := hs.wellFormed .empty
  have hmirrors := Mirrors.walk v steps [root]
  constructor
  · intro data' t hok
    obtain ⟨visited, hwalk⟩ := hmirrors.of_ok [] hok
    obtain ⟨order, horder, hpreorder⟩ := Visitor.recorded_walk_preorder rfl hv.paced wf hwalk
    cases horder
    exact ⟨_, hwalk, hpreorder⟩
  · intro e data' t herr
    obtain ⟨visited, hwalk⟩ := hmirrors.of_error [] herr
    have htraverses := Visitor.Traverses.of_walk_error hwalk
    refine ⟨visited, hwalk, fun result => ⟨fun h => h.unique htraverses, ?_⟩⟩
    rintro rfl
    exact htraverses

/-- A table that knows a class with two type parameters. -/
def SymbolTable.pairClass : SymbolTable where
  symbols := #[
    { name := some "Pair", details := .classLike { typeParameters := [⟨1⟩, ⟨2⟩] } },
    { name := some "A", details := .typeParameter {}, container := some ⟨0⟩ },
    { name := some "B", details := .typeParameter {}, container := some ⟨0⟩ }]

/-- The class comes before its type parameters. A visitor that refuses the class has seen nothing
else. -/
theorem walk_preorder_pairClass :
    let world : World := { table := .pairClass }
    let s := (Query.classLike ⟨0⟩ : Query ReturnTypes _).after world.session (.start {})
    let root : NodeId := ⟨.classLike, 0⟩
    let refusing : Visitor ReturnTypes (List NodeId) Unit :=
      .observer fun _ _ => some (.notImplemented "visitor")
    (∃ t, Preorder world.session t [root] [root, ⟨.typeParameter, 0⟩, ⟨.typeParameter, 1⟩]) ∧
      ∃ t, refusing.recorded.Traverses world.session [root] (([], []), s)
        (.error (.notImplemented "visitor") (([root], []), t)) := by
  intro world s root refusing
  have hs : Reaches world.session (.start {}) s := .operate (.wrap (.classLike ⟨0⟩)) .stay
  constructor
  · let v : Visitor ReturnTypes (List NodeId) Unit := .observer fun _ _ => none
    have hok : (v.walk 3 [root]).answer? world.session ([], s) = some [] := by decide +kernel
    have hlog : ((v.recorded.walk 3 [root]).after world.session (([], []), s)).1.1 =
        [root, ⟨.typeParameter, 0⟩, ⟨.typeParameter, 1⟩] := by decide +kernel
    obtain ⟨⟨data, t⟩, hok⟩ := Action.exists_ok_of_answer? hok
    have hv : v.Quiet := Visitor.observer_quiet _
    obtain ⟨visited, hwalk, hpreorder⟩ := (walk_preorder hs hv root [] 3).1 hok
    rw [Action.after_of_ok hwalk] at hlog
    cases hlog
    exact ⟨_, hpreorder⟩
  · have herr : refusing.walk 1 [root] world.session ([], s) =
        .error (.notImplemented "visitor") ([], _) := rfl
    obtain ⟨visited, hwalk, htraverses⟩ := (walk_preorder hs (Visitor.observer_quiet _) root [] 1).2 herr
    cases hwalk
    exact ⟨_, (htraverses _).mpr rfl⟩

end

end SymbolGraph
