import SymbolGraph.Proofs.Linked.Answer
import SymbolGraph.Proofs.Tidy.Run

/-!
# Runs of linked sessions

A session stays linked in the course of a run. If it is given forged handles, so are the wrappers that
it makes for them; if all handles are its own, nothing in it dangles.
-/

namespace SymbolGraph

variable {σ : Type} {session : Session σ} {honest : Prop} {s t : SessionState σ}

theorem Linked.walk (hs : Linked honest s) (verdict : List NodeId → NodeId → Option GraphError)
    (steps : Nat) (stack visited : List NodeId) :
    Linked honest (((Visitor.observer verdict).walk steps stack).after session (visited, s)).2 := by
  apply Visitor.walk_invariant (P := fun x => Linked honest x.2) _ _ steps stack hs
  · intro node x hx
    rw [Visitor.accept_observer]
    exact hx
  · intro node x hx
    exact (node.children_links x.2 hx (.refl _)).1

/-- A session stays linked, though some of its wrappers may hang from nothing. -/
theorem Reaches.linked (h : Reaches session s t) (hs : Linked False s) : Linked False t := by
  induction h with
  | stay => exact hs
  | operate op _ ih => exact (op.query_links False.elim _ ih (.refl _)).1
  | walk verdict steps stack visited _ ih => exact ih.walk verdict steps stack visited
  | disturb oracle _ ih => exact ih.of_sameSession ⟨rfl, rfl⟩

/-- A later state of a session that was only given handles of its own. -/
inductive HonestlyReaches (session : Session σ) (s : SessionState σ) : SessionState σ → Prop
  | stay : HonestlyReaches session s s
  | operate {t : SessionState σ} {α : Type} (op : Operation α) : HonestlyReaches session s t →
    op.Issued t.caches → HonestlyReaches session s (op.query.after session t)
  | walk {t : SessionState σ} (verdict : List NodeId → NodeId → Option GraphError) (steps : Nat)
    (stack visited : List NodeId) : HonestlyReaches session s t →
    (∀ node ∈ stack, node.Issued t.caches) →
    HonestlyReaches session s
      (((Visitor.observer verdict).walk steps stack).after session (visited, t)).2
  | disturb {t : SessionState σ} (oracle : σ) :
    HonestlyReaches session s t → HonestlyReaches session s { t with oracle }

theorem HonestlyReaches.linked (h : HonestlyReaches session s t) (hs : Linked True s) :
    Linked True t := by
  induction h with
  | stay => exact hs
  | operate op _ hissued ih => exact (op.query_links (fun _ => hissued) _ ih (.refl _)).1
  | walk verdict steps stack visited _ _ ih => exact ih.walk verdict steps stack visited
  | disturb oracle _ ih => exact ih.of_sameSession ⟨rfl, rfl⟩

end SymbolGraph
