import SymbolGraph.Proofs.Tidy.Run
import SymbolGraph.Proofs.Walk.Descent
import SymbolGraph.Proofs.Walk.Traversal

/-!
# Walks come to an end

A walk finds its nodes as it goes, and the visitor may find others meanwhile. But a child always lies
under its parent by its key, and the keys have an end. So the recursive traversal is there for every
node, and the walk does what it does.
-/

namespace SymbolGraph

variable {δ : Type} {world : World} {v : Visitor ReturnTypes δ Unit} {nodes children : List NodeId}
  {node : NodeId} {x y : δ × SessionState ReturnTypes}

namespace Visitor

/-- A visitor that does nothing to the session but by its operations. -/
def Civil {σ : Type} (v : Visitor σ δ Unit) (session : Session σ) : Prop :=
  ∀ kind w x, Reaches session x.2 ((v.visit kind w).after session x).2

theorem Quiet.civil {σ : Type} {v : Visitor σ δ Unit} (hv : v.Quiet) (session : Session σ) :
    v.Civil session := by
  intro kind w x
  rw [hv kind w session x]
  exact .stay

/-- A visitor that leaves the session as operations do, whatever node it is shown. -/
def Orderly {σ : Type} (v : Visitor σ δ Unit) (session : Session σ) : Prop :=
  ∀ (node : NodeId) (x : δ × SessionState σ),
    Reaches session x.2 ((node.accept v).after session x).2

theorem Civil.orderly {σ : Type} {v : Visitor σ δ Unit} {session : Session σ}
    (hv : v.Civil session) : v.Orderly session := by
  intro node x
  apply NodeId.after_accept (P := fun y => Reaches session x.2 y.2) .stay
  intro w _
  exact hv node.kind w x

/-! ## Entering a node -/

theorem enter_reaches (hv : v.Orderly world.session) (node : NodeId)
    (x : δ × SessionState ReturnTypes) :
    Reaches world.session x.2 ((v.enter node).after world.session x).2 := by
  let Later (y : δ × SessionState ReturnTypes) := Reaches world.session x.2 y.2
  have haccept := hv node x
  refine Action.after_bind (P := Later) haccept fun {_ y} hrun => ?_
  rw [Action.after_of_ok hrun] at haccept
  rw [Visit.ofQuery_after]
  exact .operate (.read node.handle .children) haccept

/-- Only issued nodes can be entered. -/
theorem exists_at_of_enter (hx : Tidy world.table x.2)
    (h : v.enter node world.session x = .ok children y) : ∃ k : NodeKey, k.At x.2.caches node := by
  obtain ⟨_, _, haccept, _⟩ := Action.bind_eq_ok h
  obtain ⟨w, hresolve, _⟩ := NodeId.accept_eq_ok haccept
  obtain ⟨_, _, hat⟩ := hx.genuine.exists_at (Query.resolve_eq_ok hresolve).1
  exact ⟨_, hat⟩

/-- The children of a node that was entered lie under it. -/
theorem under_of_enter (hv : v.Orderly world.session) (hx : Tidy world.table x.2) {k : NodeKey}
    (hk : k.At x.2.caches node) (h : v.enter node world.session x = .ok children y) :
    ∃ keys, View.keyed.list.Shows y.2.caches children keys ∧
      ∀ below ∈ keys, Under world.table below k := by
  have haccept := hv node x
  obtain ⟨_, z, hrun, hchildren⟩ := Action.bind_eq_ok h
  rw [Action.after_of_ok hrun] at haccept
  obtain ⟨htidy, hgrows, w, hw, keys, hkeys, hshown⟩ :=
    node.children_yields.of_ok (haccept.tidy hx) (Visit.ofQuery_eq_ok hchildren)
  obtain ⟨w', hlookup, rfl⟩ := hk.grows (haccept.grows.caches.trans hgrows)
  cases hw.symm.trans (htidy.genuine.issued_of_lookup hlookup)
  exact ⟨keys, hshown, fun below hbelow =>
    ⟨w', keys, htidy.genuine.made _ hlookup, hkeys, hbelow⟩⟩

/-! ## Traversing a tree -/

theorem Traverses.reaches (hv : v.Orderly world.session)
    (h : v.Traverses world.session nodes x (.ok () y)) : Reaches world.session x.2 y.2 := by
  generalize hresult : (.ok () y : Visit.Outcome ReturnTypes δ) = result at h
  induction h generalizing y with
  | done x =>
    cases hresult
    exact .stay
  | stopped | stoppedBelow => cases hresult
  | @next node _ _ x _ _ _ henter _ _ ihbelow ihrest =>
    have hfirst := enter_reaches hv node x
    rw [Action.after_of_ok henter] at hfirst
    exact (hfirst.trans (ihbelow rfl)).trans (ihrest hresult)

/-- Nodes are traversed one after the other. The first one that fails ends it. -/
theorem exists_traverses_list (hv : v.Orderly world.session) {keys : List NodeKey}
    (hkeys : ∀ k ∈ keys, ∀ {node : NodeId} {x : δ × SessionState ReturnTypes},
      Tidy world.table x.2 → k.At x.2.caches node →
      ∃ result, v.Traverses world.session [node] x result)
    (hx : Tidy world.table x.2) (hnodes : View.keyed.list.Shows x.2.caches nodes keys) :
    ∃ result, v.Traverses world.session nodes x result := by
  induction keys generalizing nodes x with
  | nil =>
    cases hnodes
    exact ⟨_, .done x⟩
  | cons k keys ih =>
    cases hnodes with | @cons node _ nodes _ hnode hnodes =>
    obtain ⟨result, hfirst⟩ := hkeys k List.mem_cons_self hx hnode
    cases result with
    | error e y => exact ⟨_, hfirst.append_error nodes⟩
    | ok _ y =>
      -- The other nodes keep their keys while the first one is traversed.
      have hreaches := hfirst.reaches hv
      obtain ⟨result, hrest⟩ := ih (fun k hk => hkeys k (List.mem_cons_of_mem _ hk))
        (hreaches.tidy hx) (View.grows _ hnodes hreaches.grows.caches)
      exact ⟨result, hfirst.append hrest⟩

/-- A node from which every way down ends is traversed. -/
theorem exists_traverses_of_acc (hv : v.Orderly world.session) {k : NodeKey}
    (h : Acc (Under world.table) k) (hx : Tidy world.table x.2) (hk : k.At x.2.caches node) :
    ∃ result, v.Traverses world.session [node] x result := by
  induction h generalizing node x with
  | intro k _ ih =>
    cases henter : v.enter node world.session x with
    | error e y => exact ⟨_, .stopped henter⟩
    | ok children y =>
      have hreaches := enter_reaches hv node x
      rw [Action.after_of_ok henter] at hreaches
      -- The induction goes on below the children, in the state that the visit left behind.
      obtain ⟨keys, hchildren, hunder⟩ := under_of_enter hv hx hk henter
      obtain ⟨result, hbelow⟩ := exists_traverses_list hv
        (fun below hbelow _ _ => ih below (hunder below hbelow)) (hreaches.tidy hx) hchildren
      cases result with
      | error e z => exact ⟨_, .stoppedBelow henter hbelow⟩
      | ok _ z => exact ⟨_, .next henter hbelow (.done z)⟩

theorem exists_traverses (hv : v.Orderly world.session) (h : WellFounded (Under world.table))
    (hx : Tidy world.table x.2) (node : NodeId) :
    ∃ result, v.Traverses world.session [node] x result := by
  cases henter : v.enter node world.session x with
  | error e y => exact ⟨_, .stopped henter⟩
  | ok children y =>
    obtain ⟨k, hk⟩ := exists_at_of_enter hx henter
    exact exists_traverses_of_acc hv (h.apply k) hx hk

end Visitor

/-! ## The end of a walk -/

/-- In a table that does not lead into itself a walk from any node of a session ends, also if the visitor
wraps other nodes meanwhile: some number of steps is enough, and more make no difference. -/
theorem walk_terminates {d : Draft} (hd : d.Acyclic) (htable : world.table = d.finish)
    {types : ReturnTypes} {s : SessionState ReturnTypes}
    (hs : Reaches world.session (.start types) s) (hv : v.Civil world.session) (root : NodeId)
    (data : δ) :
    ∃ taken, (∃ y, ∀ more, v.walk (taken + more) [root] world.session (data, s) = .ok [] y) ∨
      ∃ e y, ∀ more, v.walk (taken + more) [root] world.session (data, s) = .error e y := by
  have hwf : WellFounded (Under world.table) := htable ▸ Under.wellFounded hd
  have hx : Tidy world.table s := hs.tidy (.start world.table types)
  obtain ⟨result, htraverses⟩ := Visitor.exists_traverses (x := (data, s)) hv.orderly hwf hx root
  cases result with
  | ok _ y =>
    obtain ⟨taken, hwalk⟩ := htraverses.walk_ok
    exact ⟨taken, .inl ⟨y, hwalk⟩⟩
  | error e y =>
    obtain ⟨taken, hwalk⟩ := htraverses.walk_error
    exact ⟨taken, .inr ⟨e, y, hwalk⟩⟩

/-- A draft with a property whose type bears an annotation. -/
def Draft.annotatedType : Draft where
  symbols := #[.ofClass "Marker" .annotationClass, .ofProperty "p" ⟨0⟩]
  types := #[{ shape := .dynamic, rendered := "dynamic", annotations := [⟨0⟩] }]
  annotations := #[{ className := some "Marker" }]

/-- The type of the annotation comes after the type that bears it, and the walk ends all the same. -/
theorem walk_terminates_annotatedType :
    let world : World := { table := Draft.annotatedType.finish }
    let s := (Query.property ⟨1⟩ : Query ReturnTypes _).after world.session (.start {})
    let v : Visitor ReturnTypes (List NodeId) Unit := .observer fun _ _ => none
    Draft.annotatedType.finish.annotationType { className := some "Marker" } = some ⟨1⟩ ∧
      ∃ taken, (∃ y, ∀ more, v.walk (taken + more) [⟨.property, 0⟩] world.session ([], s) = .ok [] y) ∨
        ∃ e y, ∀ more, v.walk (taken + more) [⟨.property, 0⟩] world.session ([], s) = .error e y := by
  intro world s v
  have hd : Draft.annotatedType.Acyclic := by
    have hlists {owner key : SymbolKey} : ¬ Draft.annotatedType.Lists owner key := by
      rintro ⟨symbol, hsymbol, hkey⟩
      obtain ⟨_ | _ | _⟩ := owner <;> cases hsymbol <;> cases hkey
    refine ⟨fun key hkey => ?_, ?_⟩
    · cases hkey with
      | single hkey | tail _ hkey => exact hlists hkey
    · rintro ⟨_ | _⟩ record hrecord part hpart <;> cases hrecord
      cases hpart
  have hs : Reaches world.session (.start {}) s := .operate (.wrap (.property ⟨1⟩)) .stay
  refine ⟨by decide +kernel, walk_terminates hd rfl hs ((Visitor.observer_quiet _).civil _) _ []⟩

end SymbolGraph
