import SymbolGraph.Oracle.Table
import SymbolGraph.Proofs.Graph.Regular
import SymbolGraph.Proofs.Session.Memo

/-!
# Answers that last

A session over a table gives a regular query the same answer from the first time on that it has one,
and has nothing left to do for it then. The return type of a function is the only thing that may be
answered differently later, and once read it is kept.
-/

namespace SymbolGraph

variable {α β : Type} {table : SymbolTable} {session : Session ReturnTypes}

/-- Once the query has an answer, it has this answer in all later states, and leaves them as they are. -/
structure Lasting (session : Session ReturnTypes) (q : Query ReturnTypes α) : Prop where
  grows : ∀ {s a t}, q session s = .ok a t → s.Grows t
  again : ∀ {s a t}, q session s = .ok a t →
    ∀ {u : SessionState ReturnTypes}, t.Grows u → q session u = .ok a u

namespace Lasting

/-- A query that has the same answer always, and has nothing to do for it. -/
theorem of_steady {q : Query ReturnTypes α}
    (h : ∀ {s a t}, q session s = .ok a t → t = s ∧ ∀ {u}, s.Grows u → q session u = .ok a u) :
    Lasting session q where
  grows hok := (h hok).1 ▸ .refl _
  again hok := by
    obtain ⟨rfl, hagain⟩ := h hok
    exact hagain

theorem pure (a : α) : Lasting session (pure a) := by
  refine .of_steady fun hok => ?_
  cases hok
  exact ⟨rfl, fun _ => rfl⟩

theorem throw (e : GraphError) : Lasting session (throw e : Query ReturnTypes α) :=
  .of_steady fun hok => by cases hok

theorem bind {x : Query ReturnTypes α} {f : α → Query ReturnTypes β} (hx : Lasting session x)
    (hf : ∀ a, Lasting session (f a)) : Lasting session (x >>= f) where
  grows hok := by
    obtain ⟨a, _, hxa, hfa⟩ := Action.bind_eq_ok hok
    exact (hx.grows hxa).trans ((hf a).grows hfa)
  again hok u hu := by
    obtain ⟨a, _, hxa, hfa⟩ := Action.bind_eq_ok hok
    rw [Action.bind_of_ok (hx.again hxa (((hf a).grows hfa).trans hu))]
    exact (hf a).again hfa hu

/-- The table gives one answer to a question, or none at all. -/
theorem of_consult (hsession : session.oracle = table.oracle) {q : Query ReturnTypes α}
    (h : Consult q) : Lasting session q := by
  induction h with
  | pure a => exact .pure a
  | throw e => exact .throw e
  | bind _ _ ihx ihf => exact .bind ihx ihf
  | settings =>
    refine .of_steady fun hok => ?_
    cases hok
    exact ⟨rfl, fun _ => rfl⟩
  | inquire i =>
    -- The return types do not change what a table answers to an inquiry.
    obtain ⟨found, hfound⟩ : ∃ found, ∀ types, i.put session.oracle types = (found, types) := by
      rw [hsession]
      cases i <;> exact ⟨_, fun types => rfl⟩
    refine .of_steady fun hok => ?_
    rw [Query.request_apply, hfound] at hok
    cases found <;> cases hok
    exact ⟨rfl, fun _ => by rw [Query.request_apply, hfound]⟩
  | glance g =>
    obtain ⟨a, ha⟩ : ∃ a, ∀ types, g.put session.oracle types = (a, types) := by
      rw [hsession]
      cases g <;> exact ⟨_, fun types => rfl⟩
    refine .of_steady fun hok => ?_
    rw [Query.ask_apply, ha] at hok
    cases hok
    exact ⟨rfl, fun _ => by rw [Query.ask_apply, ha]⟩
  | resolve handle =>
    refine .of_steady fun hok => ?_
    obtain ⟨hw, rfl⟩ := Query.resolve_eq_ok hok
    exact ⟨rfl, fun hu => Query.resolve_of_get session (hu.get hw)⟩
  | blame key e =>
    refine .of_steady fun hok => ?_
    obtain ⟨_, _, _, hthrow⟩ := Action.bind_eq_ok hok
    cases hthrow

theorem of_regular (hsession : session.oracle = table.oracle) {q : Query ReturnTypes α}
    (h : Regular (fun _ => False) 2 q) : Lasting session q := by
  induction h with
  | consult h => exact of_consult hsession h
  | bind _ _ ihx ihf => exact .bind ihx ihf
  | @wrap kind key make hmake =>
    have hwrap : Regular (fun _ => False) 2 (Query.wrap kind key make) := .wrap hmake
    refine ⟨hwrap.grows_of_ok, fun hok _ hu => ?_⟩
    exact Query.wrap_of_lookup ((hu.caches _).lookup (Query.lookup_of_wrap hok)) _
  | memoize htier hcell hcompute hempty =>
    have hkept : Regular (fun _ => False) 2 (Query.memoize _ _) :=
      .memoize htier hcell hcompute hempty
    refine ⟨hkept.grows_of_ok, fun hok _ hu => ?_⟩
    exact Query.memoize_of_get? (hu.memo (Query.get?_of_memoize hok)) _
  | prepare h | prepared h => exact h.elim

/-- What is kept lasts, also if it is a return type. -/
theorem of_kept {cell : Cell} {q : Query ReturnTypes cell.Value}
    (h : Kept (fun _ => True) cell q) : Lasting session q where
  grows := h.regular.grows_of_ok
  again hok _ hu := h.of_get? (hu.memo (h.get?_of_ok hok)) session

end Lasting

/-! ## Children -/

theorem FunctionNode.children_lasting (hsession : session.oracle = table.oracle) (f : FunctionNode) :
    Lasting session f.children := by
  refine .bind (.of_kept (Declaration.annotations_kept _)) fun _ => ?_
  refine .bind (.of_kept (Query.typeParameters_kept _ _)) fun _ => ?_
  refine .bind (.of_kept (Query.receiverType_kept _ _)) fun _ => ?_
  refine .bind (.of_kept (f.parameters_kept)) fun _ => ?_
  refine .bind (.of_kept (f.returnType_kept trivial)) fun _ => ?_
  refine .bind ?_ fun _ => .pure _
  exact .of_regular hsession (Query.declarationNodes_regular _)

theorem NodeKind.children_lasting (hsession : session.oracle = table.oracle) (kind : NodeKind)
    (w : kind.Wrapper) : Lasting session (kind.children w) := by
  by_cases hkind : kind = .function
  · subst hkind
    exact FunctionNode.children_lasting hsession w
  · refine .of_regular hsession (kind.children_regular w fun f hf => ?_)
    cases kind <;> first | exact hkind rfl | cases hf

/-- The children of a node stay its children. -/
theorem NodeId.children_lasting (hsession : session.oracle = table.oracle) (node : NodeId) :
    Lasting session node.children :=
  .bind (.of_consult hsession (.resolve node.handle)) fun w =>
    node.kind.children_lasting hsession w

end SymbolGraph
