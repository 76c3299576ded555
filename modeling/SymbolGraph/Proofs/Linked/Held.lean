import SymbolGraph.Proofs.Linked.Run

/-!
# Nothing dangles

In a session that was only given handles of its own, every handle that a wrapper or a cell holds leads
to a wrapper, also after failures. The wrappers in a cell are the ones that their handles lead to.
-/

namespace SymbolGraph

variable {σ : Type} {session : Session σ} {s : SessionState σ} {caches : Caches} {field : Field}

/-! ## Handles in a session -/

theorem NodeId.Issued.resolve {node : NodeId} (h : node.Issued s.caches) :
    ∃ w, Query.resolve node.handle session s = .ok w s := by
  obtain ⟨w, hw⟩ := h
  exact ⟨w, Query.resolve_of_get session hw⟩

/-- If every handle that was passed to the session was one of its own, then whatever a wrapper hangs
from resolves, every parent that was found resolves, and each wrapper in a cell is the one that its
handle resolves to. -/
theorem nothing_dangles {oracle : σ} (h : HonestlyReaches session (.start oracle) s) :
    (∀ {kind : Kind} {handle : Handle kind} {w : kind.Wrapper} {node : NodeId},
      Query.resolve handle session s = .ok w s → kind.above w = some node →
      ∃ owner, Query.resolve node.handle session s = .ok owner s) ∧
    (∀ {kind : Kind} {handle : Handle kind} {node : NodeId},
      s.memo.get? (handle.cell .parent) = some (some node) →
      ∃ owner, Query.resolve node.handle session s = .ok owner s) ∧
    (∀ {cell : Cell} {v : cell.Value}, s.memo.get? cell = some v → ∀ x ∈ cell.field.wrappers v,
      Query.resolve (x.1.idOf x.2) session s = .ok x.2 s) := by
  have hs : Linked True s := h.linked (.start oracle)
  refine ⟨?_, ?_, ?_⟩
  · intro kind handle w node hw hnode
    exact ((hs.hangs_of_issued (Query.resolve_eq_ok hw).1).above hnode).resolve
  · intro kind handle node hnode
    have hparent : (Fact.option .node).Holds s.caches (some node) := hs.held hnode
    exact NodeId.Issued.resolve (hparent node rfl)
  · intro cell v hv x hx
    exact Query.resolve_of_get session (Field.issued_of_mem (hs.held hv) hx)

/-- A property with an annotation and a getter. -/
def SymbolTable.accessedProperty : SymbolTable where
  symbols := #[
    { name := some "p", details := .property { type := ⟨0⟩, getter := some ⟨1⟩ }, annotations := [⟨0⟩] },
    { name := none, details := .getter ⟨0⟩, container := some ⟨0⟩ }]
  types := #[{ shape := .dynamic, rendered := "dynamic" }]
  annotations := #[{ className := some "Mark" }]

/-- A walk from the property wraps what is below it, and the getter leads back to the property. -/
theorem nothing_dangles_accessedProperty :
    let session : Session ReturnTypes := { oracle := SymbolTable.accessedProperty.oracle }
    let before := (Query.property ⟨0⟩ : Query ReturnTypes _).after session (.start {})
    let s := ((Visitor.observer fun _ _ => none).walk 1 [⟨.property, 0⟩]).after session ([], before)
    ∃ w : GetterNode, Query.resolve (⟨0⟩ : GetterId) session s.2 = .ok w s.2 ∧
      w.receiver = ⟨0⟩ ∧ ∃ owner, Query.resolve w.receiver session s.2 = .ok owner s.2 := by
  intro session before s
  have hbefore : HonestlyReaches session (.start {}) before :=
    .operate (.wrap (.property ⟨0⟩)) .stay trivial
  have hs : HonestlyReaches session (.start {}) s.2 := by
    refine .walk _ 1 [⟨.property, 0⟩] [] hbefore fun node hnode => ?_
    cases List.mem_singleton.mp hnode
    exact ⟨_, rfl⟩
  have hgetter : (s.2.caches.getters.get 0).map (fun w : GetterNode => w.receiver) =
      some (⟨0⟩ : PropertyId) := by
    decide +kernel
  obtain ⟨w, hw, hreceiver⟩ := Option.map_eq_some_iff.mp hgetter
  have hresolve : Query.resolve (⟨0⟩ : GetterId) session s.2 = .ok w s.2 :=
    Query.resolve_of_get session hw
  exact ⟨w, hresolve, hreceiver, (nothing_dangles hs).1 hresolve rfl⟩

end SymbolGraph
