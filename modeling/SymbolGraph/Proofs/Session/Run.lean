import SymbolGraph.Proofs.Session.Operation

/-!
# Runs

The states that a session gets into. A run is any sequence of operations and walks, whether
they succeed or fail. Between two of them the front end may change in any way; the session
does not notice.
-/

namespace SymbolGraph

variable {σ δ α : Type} {session : Session σ} {s t u : SessionState σ}

/-- A later state of a session. -/
inductive Reaches (session : Session σ) (s : SessionState σ) : SessionState σ → Prop
  | stay : Reaches session s s
  | operate {t : SessionState σ} {α : Type} (op : Operation α) :
    Reaches session s t → Reaches session s (op.query.after session t)
  | walk {t : SessionState σ} (verdict : List NodeId → NodeId → Option GraphError) (steps : Nat)
    (stack visited : List NodeId) : Reaches session s t →
    Reaches session s (((Visitor.observer verdict).walk steps stack).after session (visited, t)).2
  | disturb {t : SessionState σ} (oracle : σ) :
    Reaches session s t → Reaches session s { t with oracle }

/-! ## Walks -/

namespace Visit

/-- A visit that changes the session in steps. -/
def Paced (visit : Visit σ δ α) : Prop :=
  ∀ session x, Steps 2 x.2 (visit.after session x).2

namespace Paced

variable {β : Type}

theorem pure (a : α) : Paced (pure a : Visit σ δ α) := fun _ _ => .refl

theorem bind {x : Visit σ δ α} {f : α → Visit σ δ β} (hx : Paced x) (hf : ∀ a, Paced (f a)) :
    Paced (x >>= f) := by
  intro session y
  have hfirst := hx session y
  apply Action.after_bind (P := fun z : δ × SessionState σ => Steps 2 y.2 z.2) hfirst
  intro a z hrun
  rw [Action.after_of_ok hrun] at hfirst
  exact hfirst.trans (hf a session z)

theorem ofQuery {q : Query σ α} (h : ∀ session s, Steps 2 s (q.after session s)) :
    Paced (Visit.ofQuery q : Visit σ δ α) := by
  intro session x
  rw [Visit.ofQuery_after]
  exact h session x.2

end Paced

end Visit

namespace NodeId

variable {ρ : Type} {v : Visitor σ δ ρ} {x y : δ × SessionState σ}

/-- A node that was issued is shown to the visitor, and nothing happens at any other. -/
theorem accept_cases (v : Visitor σ δ ρ) (node : NodeId) (session : Session σ)
    (x : δ × SessionState σ) :
    (∃ w, Query.resolve node.handle session x.2 = .ok w x.2 ∧
      node.accept v session x = v.visit node.kind w session x) ∨
    ∃ e, node.accept v session x = .error e x := by
  cases hresolve : Query.resolve node.handle session x.2 with
  | ok w s =>
    obtain ⟨_, rfl⟩ := Query.resolve_eq_ok hresolve
    have hshown : Visit.ofQuery (Query.resolve node.handle) session x = .ok w x := by
      rw [Visit.ofQuery, hresolve]
    exact .inl ⟨w, rfl, Action.bind_of_ok hshown _⟩
  | error e s =>
    obtain ⟨_, _, rfl⟩ := Query.resolve_eq_error hresolve
    have hstale : Visit.ofQuery (Query.resolve node.handle) session x = .error e x := by
      rw [Visit.ofQuery, hresolve]
    exact .inr ⟨e, Action.bind_of_error hstale _⟩

theorem accept_eq_ok {node : NodeId} {a : ρ} (h : node.accept v session x = .ok a y) :
    ∃ w, Query.resolve node.handle session x.2 = .ok w x.2 ∧
      v.visit node.kind w session x = .ok a y := by
  obtain ⟨w, hw, hshown⟩ | ⟨e, hstale⟩ := accept_cases v node session x
  · exact ⟨w, hw, hshown.symm.trans h⟩
  · cases hstale.symm.trans h

/-- What holds before a node is shown, and after each wrapper that it may be, holds after it was shown. -/
theorem after_accept {node : NodeId} {P : δ × SessionState σ → Prop} (hx : P x)
    (hvisit : ∀ w, Query.resolve node.handle session x.2 = .ok w x.2 →
      P ((v.visit node.kind w).after session x)) :
    P ((node.accept v).after session x) := by
  obtain ⟨w, hw, hshown⟩ | ⟨e, hstale⟩ := accept_cases v node session x
  · rw [Action.after, hshown]
    exact hvisit w hw
  · rw [Action.after_of_error hstale]
    exact hx

end NodeId

namespace Visitor

/-- Visits a node and finds its children. -/
def enter (v : Visitor σ δ Unit) (node : NodeId) : Visit σ δ (List NodeId) := do
  node.accept v
  Visit.ofQuery node.children

theorem walk_nil (v : Visitor σ δ Unit) (steps : Nat) : v.walk steps [] = pure [] := by
  cases steps <;> rfl

theorem walk_succ (v : Visitor σ δ Unit) (steps : Nat) (node : NodeId) (stack : List NodeId) :
    v.walk (steps + 1) (node :: stack) =
      v.enter node >>= fun children => v.walk steps (children ++ stack) := by
  rw [enter, bind_assoc]
  rfl

/-- The node is resolved and its children are read, and the rest is up to the visitor. -/
theorem enter_paced {v : Visitor σ δ Unit} (hv : ∀ kind w, (v.visit kind w).Paced) (node : NodeId) :
    (v.enter node).Paced := by
  have hresolve (session : Session σ) s : Steps 2 s ((Query.resolve node.handle).after session s) :=
    .single (.quiet ((Consult.resolve node.handle).sameSession session s))
  refine .bind (.bind (.ofQuery hresolve) fun w => hv node.kind w) fun _ => ?_
  exact .ofQuery (Operation.read node.handle .children).query_steps

theorem walk_paced {v : Visitor σ δ Unit} (hv : ∀ kind w, (v.visit kind w).Paced) (steps : Nat)
    (stack : List NodeId) : (v.walk steps stack).Paced := by
  induction steps generalizing stack with
  | zero => cases stack <;> exact .pure _
  | succ steps ih =>
    cases stack with
    | nil => exact .pure _
    | cons node stack =>
      rw [walk_succ]
      exact .bind (enter_paced hv node) fun children => ih _

/-- A visitor that asks the session nothing. -/
def Quiet (v : Visitor σ δ Unit) : Prop :=
  ∀ kind w session x, ((v.visit kind w).after session x).2 = x.2

theorem Quiet.paced {v : Visitor σ δ Unit} (hv : v.Quiet) (kind : NodeKind) (w : kind.Wrapper) :
    (v.visit kind w).Paced := by
  intro session x
  rw [hv kind w session x]

theorem observer_quiet (verdict : List NodeId → NodeId → Option GraphError) :
    (observer verdict : Visitor σ _ _).Quiet := by
  intro kind w session x
  cases kind <;> exact observer_after verdict _ session x

end Visitor

/-! ## Runs in steps -/

namespace Reaches

theorem trans (h₁ : Reaches session s t) (h₂ : Reaches session t u) : Reaches session s u := by
  induction h₂ with
  | stay => exact h₁
  | operate op _ ih => exact .operate op ih
  | walk verdict steps stack visited _ ih => exact .walk verdict steps stack visited ih
  | disturb oracle _ ih => exact .disturb oracle ih

theorem steps (h : Reaches session s t) : Steps 2 s t := by
  induction h with
  | stay => exact .refl
  | operate op _ ih => exact ih.trans (op.query_steps session _)
  | walk verdict steps stack visited _ ih =>
    have hv : (Visitor.observer verdict : Visitor σ _ _).Quiet := Visitor.observer_quiet verdict
    exact ih.trans (Visitor.walk_paced hv.paced steps stack session (visited, _))
  | disturb oracle _ ih => exact ih.tail (.quiet ⟨rfl, rfl⟩)

theorem grows (h : Reaches session s t) : s.Grows t := h.steps.grows

end Reaches

end SymbolGraph
