import SymbolGraph.Proofs.Session.Retry
import SymbolGraph.Proofs.Walk.Preorder

/-!
# Walking again

A walk that has come to its end has left the whole tree in the session. Whoever walks it again finds
the same nodes in the same order, no matter what else was asked meanwhile, and nothing is left to be
done for it: caches, fields and the answers of the front end stay as they are.
-/

namespace SymbolGraph

variable {σ δ : Type} {session : Session σ} {s t u : SessionState σ} {node : NodeId}
  {nodes rest order children : List NodeId}

/-! ## A tree that is complete -/

namespace Preorder

theorem append {below after : List NodeId} (h : Preorder session s nodes below)
    (hrest : Preorder session s rest after) : Preorder session s (nodes ++ rest) (below ++ after) := by
  induction h with
  | nil => exact hrest
  | cons hchildren hbelow _ _ ih =>
    rw [List.cons_append, List.cons_append, List.append_assoc]
    exact .cons hchildren hbelow ih

/-- A tree that a session over a table holds stays as it is. -/
theorem grows {table : SymbolTable} {session : Session ReturnTypes}
    {s t : SessionState ReturnTypes} (hsession : session.oracle = table.oracle)
    (h : Preorder session s nodes order) (hgrows : s.Grows t) : Preorder session t nodes order := by
  induction h with
  | nil => exact .nil
  | @cons node _ _ _ _ hchildren _ _ ihbelow ihafter =>
    exact .cons ((node.children_lasting hsession).again hchildren hgrows) ihbelow ihafter

end Preorder

namespace Visitor

variable {v : Visitor σ δ Unit}

/-- Some visit of the visitor fails in this way. -/
def FailsWith (v : Visitor σ δ Unit) (session : Session σ) (e : GraphError) : Prop :=
  ∃ (kind : NodeKind) (w : kind.Wrapper) (x y : δ × SessionState σ),
    v.visit kind w session x = .error e y

/-- A node whose children are known is noted down and left as it is. Only the visitor can fail there. -/
theorem recorded_enter_again (hv : v.Quiet) (wf : s.caches.WellFormed)
    (hnode : node.children session s = .ok children s) (seen : List NodeId) (data : δ) :
    (∃ data', v.recorded.enter node session ((seen, data), s) =
        .ok children ((seen ++ [node], data'), s)) ∨
      ∃ e data', v.recorded.enter node session ((seen, data), s) =
        .error e ((seen ++ [node], data'), s) ∧ v.FailsWith session e := by
  obtain ⟨w, s', hresolve, _⟩ := Action.bind_eq_ok hnode
  obtain ⟨hw, rfl⟩ := Query.resolve_eq_ok hresolve
  have hid : ((Kind.node node.kind).idOf w).node = node := congrArg Handle.node (wf.idOf_eq hw)
  have haccept : node.accept v.recorded session ((seen, data), s') =
      (v.visit node.kind w).noted node session ((seen, data), s') := by
    have hfound : (Visit.ofQuery (Query.resolve node.handle) : Visit σ (List NodeId × δ) _) session
        ((seen, data), s') = .ok w ((seen, data), s') := by
      rw [Visit.ofQuery, hresolve]
    rw [NodeId.accept, Action.bind_of_ok hfound, recorded_visit, hid]
  -- A quiet visitor leaves the session as it is, so the children are there as before.
  have hquiet := hv node.kind w session (data, s')
  cases hvisit : v.visit node.kind w session (data, s') with
  | ok _ y =>
    rw [Action.after_of_ok hvisit] at hquiet
    rw [Visit.noted, hvisit] at haccept
    refine .inl ⟨y.1, ?_⟩
    rw [enter, Action.bind_of_ok haccept, Visit.ofQuery, hquiet, hnode]
  | error e y =>
    rw [Action.after_of_error hvisit] at hquiet
    rw [Visit.noted, hvisit] at haccept
    refine .inr ⟨e, y.1, ?_, node.kind, w, _, y, hvisit⟩
    rw [enter, Action.bind_of_error haccept, hquiet]

/-- A complete tree is shown from its first node on, and left as it is. Only the visitor can stop
that. -/
theorem recorded_walk_again (hv : v.Quiet) (wf : s.caches.WellFormed) {steps : Nat}
    (h : Preorder session s nodes order) (hsteps : order.length ≤ steps) (seen : List NodeId)
    (data : δ) :
    (∃ data', v.recorded.walk steps nodes session ((seen, data), s) =
        .ok [] ((seen ++ order, data'), s)) ∨
      ∃ shown e data', shown <+: order ∧ v.recorded.walk steps nodes session ((seen, data), s) =
        .error e ((seen ++ shown, data'), s) ∧ v.FailsWith session e := by
  -- The preorder of the stack is what is still to be shown, and each step takes its first node.
  induction steps generalizing nodes order seen data with
  | zero =>
    cases h with
    | nil => exact .inl ⟨data, by rw [List.append_nil]; rfl⟩
    | cons => cases hsteps
  | succ steps ih =>
    cases h with
    | nil => exact .inl ⟨data, by rw [List.append_nil]; rfl⟩
    | @cons node rest _ below after hchildren hbelow hafter =>
      rw [walk_succ]
      rcases recorded_enter_again hv wf hchildren seen data with
        ⟨data', henter⟩ | ⟨e, data', henter, hfails⟩
      · rw [Action.bind_of_ok henter]
        have hlength : (below ++ after).length ≤ steps := Nat.le_of_succ_le_succ hsteps
        rcases ih (hbelow.append hafter) hlength (seen ++ [node]) data' with
          ⟨last, hwalk⟩ | ⟨shown, e, last, hshown, hwalk, hfails⟩
        · exact .inl ⟨last, by rw [hwalk, ← List.append_cons]⟩
        · refine .inr ⟨node :: shown, e, last, ?_, ?_, hfails⟩
          · exact (List.prefix_cons_inj node).mpr hshown
          · rw [hwalk, ← List.append_cons]
      · rw [Action.bind_of_error henter]
        exact .inr ⟨[node], e, data', List.prefix_append [node] (below ++ after), rfl, hfails⟩

end Visitor

/-! ## The second walk -/

/-- After a walk that came to its end and any number of operations, walks and changes of the front end,
another walk from the same node shows the same nodes in the same order, also to another visitor, and
leaves the session and the front end as they are. If the visitor makes it fail it has shown the nodes
up to there and leaves them as they are too. -/
theorem walk_again {world : World} {types : ReturnTypes} {s t u : SessionState ReturnTypes}
    {v : Visitor ReturnTypes δ Unit} (hs : Reaches world.session (.start types) s) (hv : v.Quiet)
    {root : NodeId} {data data' : δ} {steps : Nat}
    (hwalk : v.walk steps [root] world.session (data, s) = .ok [] (data', t))
    (hu : Reaches world.session t u) :
    ∃ visited,
      v.recorded.walk steps [root] world.session (([], data), s) = .ok [] ((visited, data'), t) ∧
      ∀ {ε : Type} {w : Visitor ReturnTypes ε Unit}, w.Quiet → ∀ (start : ε) {more : Nat},
        visited.length ≤ more →
        (∃ last,
          w.walk more [root] world.session (start, u) = .ok [] (last, u) ∧
          w.recorded.walk more [root] world.session (([], start), u) =
            .ok [] ((visited, last), u)) ∨
        ∃ shown e last, shown <+: visited ∧ w.FailsWith world.session e ∧
          w.walk more [root] world.session (start, u) = .error e (last, u) ∧
          w.recorded.walk more [root] world.session (([], start), u) =
            .error e ((shown, last), u) := by
  have wf : s.caches.WellFormed := hs.wellFormed .empty
  obtain ⟨visited, hrecorded⟩ := (Mirrors.walk v steps [root]).of_ok [] hwalk
  obtain ⟨_, rfl, hpreorder⟩ := Visitor.recorded_walk_preorder rfl hv.paced wf hrecorded
  refine ⟨visited, hrecorded, fun {ε w} hw start more hmore => ?_⟩
  have hfirst := Visitor.walk_paced hv.paced steps [root] world.session (data, s)
  rw [Action.after_of_ok hwalk] at hfirst
  have hcomplete := hpreorder.grows rfl hu.grows
  have hmirrors := Mirrors.walk w more [root] world.session (([], start), u)
  rcases Visitor.recorded_walk_again hw (hu.wellFormed (hfirst.wellFormed wf)) hcomplete hmore []
    start with ⟨last, hagain⟩ | ⟨shown, e, last, hshown, hagain, hfails⟩
  · rw [hagain] at hmirrors
    exact .inl ⟨last, hmirrors.symm, hagain⟩
  · rw [hagain] at hmirrors
    exact .inr ⟨shown, e, last, hshown, hfails, hmirrors.symm, hagain⟩

/-- The first walk settles the return type of a platform method. The second one shows it still, though
the front end has lost its return types, and does not bring them back. -/
theorem walk_again_deferringMethod :
    let world : World := { table := .deferringMethod }
    let s := (Query.function ⟨1⟩ : Query ReturnTypes _).after world.session
      (.start world.table.returnTypes)
    let root : NodeId := ⟨.function, 0⟩
    let v : Visitor ReturnTypes (List NodeId) Unit := .observer fun _ _ => none
    let lost : ReturnTypes := {}
    ∃ t data data', v.walk 3 [root] world.session ([], s) = .ok [] (data, t) ∧
      t.oracle.known[(⟨1⟩ : SymbolKey)]? = some ⟨1⟩ ∧
      v.recorded.walk 3 [root] world.session (([], []), { t with oracle := lost }) =
        .ok [] (([root, ⟨.typeReference, 0⟩, ⟨.classifierReference, 0⟩], data'),
          { t with oracle := lost }) := by
  intro world s root v lost
  have hs : Reaches world.session (.start world.table.returnTypes) s :=
    .operate (.wrap (.function ⟨1⟩)) .stay
  have hv : v.Quiet := Visitor.observer_quiet _
  have hfails {e : GraphError} : ¬ v.FailsWith world.session e := by
    rintro ⟨kind, w, x, y, hvisit⟩
    cases kind <;> cases hvisit
  have hok : (v.walk 3 [root]).answer? world.session ([], s) = some [] := by decide +kernel
  have hshown : ((v.recorded.walk 3 [root]).after world.session (([], []), s)).1.1 =
      [root, ⟨.typeReference, 0⟩, ⟨.classifierReference, 0⟩] := by decide +kernel
  have hsettled : ((v.walk 3 [root]).after world.session ([], s)).2.oracle.known[
      (⟨1⟩ : SymbolKey)]? = some ⟨1⟩ := by decide +kernel
  obtain ⟨⟨data, t⟩, hwalk⟩ := Action.exists_ok_of_answer? hok
  have hu : Reaches world.session t { t with oracle := lost } := .disturb lost .stay
  obtain ⟨visited, hrecorded, hagain⟩ := walk_again hs hv hwalk hu
  rw [Action.after_of_ok hrecorded] at hshown
  rw [Action.after_of_ok hwalk] at hsettled
  cases hshown
  rcases hagain hv [] (Nat.le_refl 3) with ⟨data', _, hrecorded'⟩ | ⟨_, _, _, _, hfail, _⟩
  · exact ⟨t, data, data', hwalk, hsettled, hrecorded'⟩
  · exact absurd hfail hfails

end SymbolGraph
