import SymbolGraph.Proofs.Session.Run

/-!
# Walks and recursive traversals

A walk keeps the nodes that are still to be visited on a stack. Here the same tree is traversed by
recursion: a node, then everything below each of its children in turn. The two come to the same end,
in the same state and with the same data, whether they succeed or fail, and whatever the visitor does.
-/

namespace SymbolGraph

variable {σ δ : Type} {v : Visitor σ δ Unit} {session : Session σ}

/-- How a traversal ends. -/
abbrev Visit.Outcome (σ δ : Type) := EStateM.Result GraphError (δ × SessionState σ) Unit

namespace Visitor

/-! ## Traversals by recursion -/

/-- A recursive traversal of the trees under some nodes: each node before its children, and everything
under it before the next node. The first failure ends the whole of it. -/
inductive Traverses (v : Visitor σ δ Unit) (session : Session σ) :
    List NodeId → δ × SessionState σ → Visit.Outcome σ δ → Prop
  | done (x : δ × SessionState σ) : Traverses v session [] x (.ok () x)
  | stopped {node : NodeId} {rest : List NodeId} {x y : δ × SessionState σ} {e : GraphError} :
    v.enter node session x = .error e y → Traverses v session (node :: rest) x (.error e y)
  | stoppedBelow {node : NodeId} {rest children : List NodeId} {x y z : δ × SessionState σ}
    {e : GraphError} : v.enter node session x = .ok children y →
    Traverses v session children y (.error e z) →
    Traverses v session (node :: rest) x (.error e z)
  | next {node : NodeId} {rest children : List NodeId} {x y z : δ × SessionState σ}
    {result : Visit.Outcome σ δ} : v.enter node session x = .ok children y →
    Traverses v session children y (.ok () z) → Traverses v session rest z result →
    Traverses v session (node :: rest) x result

namespace Traverses

variable {nodes rest : List NodeId} {x y : δ × SessionState σ} {result : Visit.Outcome σ δ}
  {e : GraphError}

/-- A traversal ends in one way. -/
theorem unique (h : v.Traverses session nodes x result) {other : Visit.Outcome σ δ}
    (h' : v.Traverses session nodes x other) : result = other := by
  induction h generalizing other with
  | done x =>
    cases h'
    rfl
  | stopped henter =>
    cases h' with
    | stopped henter' =>
      cases henter.symm.trans henter'
      rfl
    | stoppedBelow henter' | next henter' => cases henter.symm.trans henter'
  | stoppedBelow henter _ ih =>
    cases h' with
    | stopped henter' => cases henter.symm.trans henter'
    | stoppedBelow henter' hbelow =>
      cases henter.symm.trans henter'
      exact ih hbelow
    | next henter' hbelow =>
      cases henter.symm.trans henter'
      cases ih hbelow
  | next henter _ _ ihbelow ihrest =>
    cases h' with
    | stopped henter' => cases henter.symm.trans henter'
    | stoppedBelow henter' hbelow =>
      cases henter.symm.trans henter'
      cases ihbelow hbelow
    | next henter' hbelow hrest =>
      cases henter.symm.trans henter'
      cases ihbelow hbelow
      exact ihrest hrest

/-- What is traversed in two parts either ends in the first part, or goes on to the second one. -/
theorem of_append (h : v.Traverses session (nodes ++ rest) x result) :
    (∃ e y, result = .error e y ∧ v.Traverses session nodes x (.error e y)) ∨
      ∃ y, v.Traverses session nodes x (.ok () y) ∧ v.Traverses session rest y result := by
  induction nodes generalizing x with
  | nil => exact .inr ⟨x, .done x, h⟩
  | cons node nodes ih =>
    cases h with
    | stopped henter => exact .inl ⟨_, _, rfl, .stopped henter⟩
    | stoppedBelow henter hbelow => exact .inl ⟨_, _, rfl, .stoppedBelow henter hbelow⟩
    | next henter hbelow hrest =>
      rcases ih hrest with ⟨e, y, rfl, hnodes⟩ | ⟨y, hnodes, hrest⟩
      · exact .inl ⟨e, y, rfl, .next henter hbelow hnodes⟩
      · exact .inr ⟨y, .next henter hbelow hnodes, hrest⟩

theorem append (h : v.Traverses session nodes x (.ok () y)) (hrest : v.Traverses session rest y result) :
    v.Traverses session (nodes ++ rest) x result := by
  generalize hfirst : (.ok () y : Visit.Outcome σ δ) = first at h
  induction h with
  | done x =>
    cases hfirst
    exact hrest
  | stopped | stoppedBelow => cases hfirst
  | next henter hbelow _ _ ih => exact .next henter hbelow (ih hfirst)

theorem append_error (h : v.Traverses session nodes x (.error e y)) (rest : List NodeId) :
    v.Traverses session (nodes ++ rest) x (.error e y) := by
  generalize hfirst : (.error e y : Visit.Outcome σ δ) = first at h ⊢
  induction h with
  | done x => cases hfirst
  | stopped henter => exact .stopped henter
  | stoppedBelow henter hbelow => exact .stoppedBelow henter hbelow
  | next henter hbelow _ _ ih => exact .next henter hbelow (ih hfirst)

/-- The children of a node go on the stack in front of the other nodes. -/
theorem push {node : NodeId} {children : List NodeId} (henter : v.enter node session x = .ok children y)
    (h : v.Traverses session (children ++ rest) y result) :
    v.Traverses session (node :: rest) x result := by
  rcases h.of_append with ⟨e, z, rfl, hbelow⟩ | ⟨z, hbelow, hrest⟩
  · exact .stoppedBelow henter hbelow
  · exact .next henter hbelow hrest

/-! ## From walks to traversals -/

/-- A walk that has come to its end is a traversal. -/
theorem of_walk_ok {steps : Nat} (h : v.walk steps nodes session x = .ok [] y) :
    v.Traverses session nodes x (.ok () y) := by
  induction steps generalizing nodes x with
  | zero =>
    cases nodes <;> cases h
    exact .done _
  | succ steps ih =>
    cases nodes with
    | nil =>
      cases h
      exact .done _
    | cons node nodes =>
      rw [walk_succ] at h
      obtain ⟨children, z, henter, hwalk⟩ := Action.bind_eq_ok h
      exact .push henter (ih hwalk)

/-- So is a walk that has failed. -/
theorem of_walk_error {steps : Nat} (h : v.walk steps nodes session x = .error e y) :
    v.Traverses session nodes x (.error e y) := by
  induction steps generalizing nodes x with
  | zero => cases nodes <;> cases h
  | succ steps ih =>
    cases nodes with
    | nil => cases h
    | cons node nodes =>
      rw [walk_succ] at h
      rcases Action.bind_eq_error h with henter | ⟨children, z, henter, hwalk⟩
      · exact .stopped henter
      · exact .push henter (ih hwalk)

/-! ## From traversals to walks -/

/-- After a traversal the walk goes on with what was under the nodes on the stack. -/
theorem walk_append {z : δ × SessionState σ} (h : v.Traverses session nodes x (.ok () z))
    (rest : List NodeId) :
    ∃ taken, ∀ steps, v.walk (taken + steps) (nodes ++ rest) session x = v.walk steps rest session z := by
  generalize hresult : (.ok () z : Visit.Outcome σ δ) = result at h
  induction h generalizing z rest with
  | done x =>
    cases hresult
    exact ⟨0, fun steps => by rw [Nat.zero_add, List.nil_append]⟩
  | stopped | stoppedBelow => cases hresult
  | @next node nodes children _ _ _ _ henter _ _ ihbelow ihrest =>
    obtain ⟨below, hbelow⟩ := ihbelow (nodes ++ rest) rfl
    obtain ⟨after, hafter⟩ := ihrest rest hresult
    -- One step for the node, then those for everything below it, then those for the rest.
    refine ⟨below + after + 1, fun steps => ?_⟩
    rw [Nat.add_right_comm, List.cons_append, walk_succ, Action.bind_of_ok henter, Nat.add_assoc,
      hbelow, hafter]

theorem walk_ok (h : v.Traverses session nodes x (.ok () y)) :
    ∃ taken, ∀ steps, v.walk (taken + steps) nodes session x = .ok [] y := by
  obtain ⟨taken, htaken⟩ := h.walk_append []
  refine ⟨taken, fun steps => ?_⟩
  have hwalk := htaken steps
  rw [List.append_nil, walk_nil] at hwalk
  exact hwalk

theorem walk_error_append (h : v.Traverses session nodes x (.error e y)) (rest : List NodeId) :
    ∃ taken, ∀ steps, v.walk (taken + steps) (nodes ++ rest) session x = .error e y := by
  generalize hresult : (.error e y : Visit.Outcome σ δ) = result at h
  induction h generalizing rest with
  | done x => cases hresult
  | stopped henter =>
    cases hresult
    refine ⟨1, fun steps => ?_⟩
    rw [Nat.add_comm, List.cons_append, walk_succ, Action.bind_of_error henter]
  | @stoppedBelow node nodes _ _ _ _ _ henter _ ih =>
    obtain ⟨below, hbelow⟩ := ih (nodes ++ rest) hresult
    refine ⟨below + 1, fun steps => ?_⟩
    rw [Nat.add_right_comm, List.cons_append, walk_succ, Action.bind_of_ok henter, hbelow]
  | @next node nodes _ _ _ _ _ henter hnodes _ _ ih =>
    obtain ⟨below, hbelow⟩ := hnodes.walk_append (nodes ++ rest)
    obtain ⟨after, hafter⟩ := ih rest hresult
    refine ⟨below + after + 1, fun steps => ?_⟩
    rw [Nat.add_right_comm, List.cons_append, walk_succ, Action.bind_of_ok henter, Nat.add_assoc,
      hbelow, hafter]

theorem walk_error (h : v.Traverses session nodes x (.error e y)) :
    ∃ taken, ∀ steps, v.walk (taken + steps) nodes session x = .error e y := by
  obtain ⟨taken, htaken⟩ := h.walk_error_append []
  exact ⟨taken, fun steps => by rw [← htaken steps, List.append_nil]⟩

end Traverses

end Visitor

end SymbolGraph
