import SymbolGraph.Proofs.Meaning.Children
import SymbolGraph.Proofs.Meaning.History
import SymbolGraph.Proofs.Walk.Termination

/-!
# Walks that succeed

In a closed table the children of every apt node are found, and they are apt. So a walk from an apt node
does not fail, unless the visitor does.
-/

namespace SymbolGraph

variable {α β δ : Type} {world : World} {caches : Caches}

/-! ## Queries with an answer -/

/-- The query succeeds with something that shows what is called for, and the session stays sound. -/
theorem Answers.exists_ok {v : View α β} {q : Query ReturnTypes α} {m : Meaning β} {P : β → Prop}
    (h : Answers world caches v q m) (hm : m.Gives P) {s : SessionState ReturnTypes}
    (hs : Sound world s) (hgrows : caches.Grows s.caches) :
    ∃ a b t, q world.session s = .ok a t ∧ Sound world t ∧ s.caches.Grows t.caches ∧
      v.Shows t.caches a b ∧ P b := by
  obtain ⟨b, rfl, hb⟩ := hm
  obtain ⟨hsound, hlater, houtcome⟩ := h s hs hgrows
  cases hrun : q world.session s with
  | ok a t =>
    rw [hrun] at houtcome
    rw [Action.after_of_ok hrun] at hsound hlater
    cases houtcome with | ok hshows =>
    exact ⟨a, b, t, rfl, hsound, hlater, hshows, hb⟩
  | error e t =>
    rw [hrun] at houtcome
    cases houtcome

namespace Visitor

variable {v : Visitor ReturnTypes δ Unit} {nodes : List NodeId} {node : NodeId}
  {x y : δ × SessionState ReturnTypes}

/-- A visitor that does not fail at apt nodes, and leaves a sound session sound. -/
def Serves (v : Visitor ReturnTypes δ Unit) (world : World) : Prop :=
  ∀ ⦃n : NodeEntity⦄ ⦃node : NodeId⦄ ⦃x : δ × SessionState ReturnTypes⦄, Sound world x.2 →
    n.At x.2.caches node → n.Apt world → ∃ y, node.accept v world.session x = .ok () y ∧
      Sound world y.2 ∧ x.2.caches.Grows y.2.caches

namespace Serves

variable (hv : v.Serves world) (hclosed : world.table.Closed)

include hv hclosed

/-- An apt node can be entered, and its children are apt. -/
theorem enter {n : NodeEntity} (hx : Sound world x.2) (hat : n.At x.2.caches node)
    (hapt : n.Apt world) : ∃ children ns y, v.enter node world.session x = .ok children y ∧
      Sound world y.2 ∧ x.2.caches.Grows y.2.caches ∧ View.node.list.Shows y.2.caches children ns ∧
      NodeEntity.AllApt world ns := by
  obtain ⟨z, haccept, hz, hgrows⟩ := hv hx hat hapt
  obtain ⟨kind, e⟩ := n
  obtain ⟨h, hlater, rfl⟩ := hat.grows hgrows
  obtain ⟨w, hw⟩ := hapt.portrait
  have hmeaning : (Reading.children.meaning world e).Gives (NodeEntity.AllApt world) := by
    rw [Reading.meaning, hw, Meaning.ok_bind]
    exact NodeKind.below_gives hclosed hapt hw
  obtain ⟨children, ns, t, hchildren, ht, hgrows', hshows, hns⟩ :=
    (Operation.read_answers hlater .children).exists_ok hmeaning hz (.refl _)
  refine ⟨children, ns, (z.1, t), ?_, ht, hgrows.trans hgrows', hshows, hns⟩
  rw [Visitor.enter, Action.bind_of_ok haccept]
  exact Visit.ofQuery_of_ok hchildren

/-- However a traversal of apt nodes ends, it does not fail. -/
theorem traverses_ok {result : Visit.Outcome ReturnTypes δ}
    (h : v.Traverses world.session nodes x result) {ns : List NodeEntity} (hx : Sound world x.2)
    (hnodes : View.node.list.Shows x.2.caches nodes ns) (hns : NodeEntity.AllApt world ns) :
    ∃ y, result = .ok () y ∧ Sound world y.2 ∧ x.2.caches.Grows y.2.caches := by
  -- An apt node can be entered, so both ways to stop are excluded; its children are apt again.
  induction h generalizing ns with
  | done x => exact ⟨x, rfl, hx, .refl _⟩
  | stopped henter =>
    cases hnodes with | cons hnode =>
    obtain ⟨hn, _⟩ := List.forall_mem_cons.mp hns
    obtain ⟨_, _, _, henter', _⟩ := hv.enter hclosed hx hnode hn
    cases henter.symm.trans henter'
  | stoppedBelow henter _ ih =>
    cases hnodes with | cons hnode =>
    obtain ⟨hn, _⟩ := List.forall_mem_cons.mp hns
    obtain ⟨_, _, _, henter', hy, _, hchildren, hbelow⟩ := hv.enter hclosed hx hnode hn
    cases henter.symm.trans henter'
    obtain ⟨_, hfailed, _⟩ := ih hy hchildren hbelow
    cases hfailed
  | next henter _ _ ihbelow ihrest =>
    cases hnodes with | cons hnode hnodes =>
    obtain ⟨hn, hns⟩ := List.forall_mem_cons.mp hns
    obtain ⟨_, _, _, henter', hy, hgrows, hchildren, hbelow⟩ := hv.enter hclosed hx hnode hn
    cases henter.symm.trans henter'
    obtain ⟨_, hdone, hz, hgrows'⟩ := ihbelow hy hchildren hbelow
    cases hdone
    -- The other nodes are still there after everything below the first one.
    have hgrows := hgrows.trans hgrows'
    obtain ⟨u, hresult, hu, hgrows''⟩ := ihrest hz (View.node.list.grows hnodes hgrows) hns
    exact ⟨u, hresult, hu, hgrows.trans hgrows''⟩

/-- Where every way down ends, a walk from an apt node comes to its end. -/
theorem walk_ends (horderly : v.Orderly world.session) (hwf : WellFounded (Under world.table))
    {n : NodeEntity} (htidy : Tidy world.table x.2) (hx : Sound world x.2)
    (hat : n.At x.2.caches node) (hapt : n.Apt world) :
    ∃ taken y, (∀ more, v.walk (taken + more) [node] world.session x = .ok [] y) ∧
      Tidy world.table y.2 ∧ Sound world y.2 ∧ x.2.caches.Grows y.2.caches := by
  obtain ⟨result, htraverses⟩ := exists_traverses horderly hwf htidy node
  obtain ⟨y, rfl, hy, hgrows⟩ :=
    hv.traverses_ok hclosed htraverses hx (View.list_singleton hat) (by simpa [NodeEntity.AllApt] using hapt)
  obtain ⟨taken, hwalk⟩ := htraverses.walk_ok
  exact ⟨taken, y, hwalk, (htraverses.reaches horderly).tidy htidy, hy, hgrows⟩

end Serves

end Visitor

end SymbolGraph
