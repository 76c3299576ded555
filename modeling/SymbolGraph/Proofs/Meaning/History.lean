import SymbolGraph.Proofs.Meaning.Operation
import SymbolGraph.Proofs.Session.Run

/-!
# Independence of history

A session over a table that is only asked about its own handles stays sound, whatever it is
asked and in whatever order. So two such sessions say the same of every entity that both of
them know, up to the numbers of handles.
-/

namespace SymbolGraph

variable {α β : Type} {world : World} {caches : Caches} {s t : SessionState ReturnTypes}

/-! ## Walks -/

theorem NodeId.children_answers {n : NodeEntity} {node : NodeId} (hat : n.At caches node) :
    ∃ m, Answers world caches View.node.list node.children m := by
  obtain ⟨h, hat, rfl⟩ := hat
  exact ⟨_, Operation.read_answers hat .children⟩

namespace Visitor

/-- An observer leaves the session as it is, whatever node it is shown. -/
theorem accept_observer {σ : Type} (verdict : List NodeId → NodeId → Option GraphError)
    (node : NodeId) (session : Session σ) (x : List NodeId × SessionState σ) :
    ((node.accept (observer verdict)).after session x).2 = x.2 := by
  apply NodeId.after_accept (P := fun y => y.2 = x.2) rfl
  intro w _
  exact observer_quiet verdict node.kind w session x

theorem walk_sound (verdict : List NodeId → NodeId → Option GraphError) (steps : Nat)
    {stack visited : List NodeId} {ns : List NodeEntity} (hs : Sound world s)
    (hstack : View.node.list.Shows s.caches stack ns) :
    Sound world (((observer verdict).walk steps stack).after world.session (visited, s)).2 := by
  induction steps generalizing stack visited ns s with
  | zero => cases stack <;> exact hs
  | succ steps ih =>
    cases hstack with
    | nil => exact hs
    | @cons node n stack ns hnode hrest =>
      have haccept := accept_observer verdict node world.session (visited, s)
      apply Action.after_bind (P := fun x : List NodeId × SessionState ReturnTypes => Sound world x.2)
      · exact haccept ▸ hs
      · intro _ x hrun
        rw [Action.after_of_ok hrun] at haccept
        obtain ⟨visited', s'⟩ := x
        cases haccept
        -- The children go in front of the nodes that are still to be visited.
        obtain ⟨m, hanswers⟩ := NodeId.children_answers hnode
        obtain ⟨hsound, hgrows, houtcome⟩ := hanswers s hs (.refl _)
        apply Action.after_bind (P := fun x : List NodeId × SessionState ReturnTypes => Sound world x.2)
        · rw [Visit.ofQuery_after]
          exact hsound
        · intro children y hrun
          have hchildren := Visit.ofQuery_eq_ok hrun
          rw [Action.after_of_ok hchildren] at hsound hgrows
          rw [hchildren] at houtcome
          cases houtcome with | ok hshows =>
          exact ih hsound (View.list_append hshows (View.node.list.grows hrest hgrows))

end Visitor

/-! ## Histories -/

/-- The states that a session over a table gets into if it is only asked about its own handles. -/
inductive World.History (world : World) : SessionState ReturnTypes → Prop
  | start : History world (.start world.table.returnTypes)
  | operate {s : SessionState ReturnTypes} {α : Type} (op : Operation α) : History world s →
    op.Issued s.caches → History world (op.query.after world.session s)
  | walk {s : SessionState ReturnTypes} (verdict : List NodeId → NodeId → Option GraphError)
    (steps : Nat) (stack visited : List NodeId) : History world s →
    (∀ node ∈ stack, node.Issued s.caches) →
    History world (((Visitor.observer verdict).walk steps stack).after world.session (visited, s)).2

theorem World.History.sound (h : world.History s) : Sound world s := by
  induction h with
  | start => exact .start world
  | operate op _ hissued hs => exact op.query_sound hs hissued
  | walk verdict steps stack visited _ hissued hs =>
    obtain ⟨ns, hstack⟩ := hs.faithful.exists_list_at hissued
    exact Visitor.walk_sound verdict steps hs hstack

theorem World.History.reaches (h : world.History s) :
    Reaches world.session (.start world.table.returnTypes) s := by
  induction h with
  | start => exact .stay
  | operate op _ _ ih => exact .operate op ih
  | walk verdict steps stack visited _ _ ih => exact .walk verdict steps stack visited ih

/-- Two outcomes show the same thing, each in its own caches. -/
def View.Alike (v : View α β)
    (outcome outcome' : EStateM.Result GraphError (SessionState ReturnTypes) α) : Prop :=
  ∃ m, v.Outcome outcome m ∧ v.Outcome outcome' m

/-- What a session was asked before, and in which order, has no part in what it says but for the
numbers of handles. Every issued handle leads to just one entity, and a result with handles in it
is translated into one with entities, and back, in at most one way. Whatever is read off an entity
that two sessions over a table know, they both succeed or both fail, and both results translate into
the same one. -/
theorem history_independence (hs : world.History s) (ht : world.History t) :
    (∀ {kind} {h : Handle kind}, h.Issued s.caches → ∃! e : Entity kind, e.At s.caches h) ∧
    (∀ {kind α} (r : Reading kind α), r.view.Exact s.caches) ∧
    ∀ {kind} {e : Entity kind} {h h' : Handle kind}, e.At s.caches h → e.At t.caches h' →
      ∀ {α} (r : Reading kind α),
        r.view.Alike ((Operation.read h r).query world.session s)
          ((Operation.read h' r).query world.session t) := by
  have hsound : Sound world s := hs.sound
  refine ⟨?_, ?_, ?_⟩
  · intro kind h hissued
    exact hsound.faithful.existsUnique_at hissued
  · intro kind α r
    exact r.view_exact hsound.faithful.wellFormed
  · intro kind e h h' hat hat' α r
    -- Both outcomes show what the table alone says that the reading means.
    obtain ⟨_, _, houtcome⟩ := Operation.read_answers hat r s hsound (.refl _)
    obtain ⟨_, _, houtcome'⟩ := Operation.read_answers hat' r t ht.sound (.refl _)
    exact ⟨_, houtcome, houtcome'⟩

/-- A table with a class that has a method, and another class. -/
def SymbolTable.twoClasses : SymbolTable where
  symbols := #[
    { name := some "A", details := .classLike { members := [⟨1⟩] } },
    { name := some "f", details := .function {}, container := some ⟨0⟩ },
    { name := some "B", details := .classLike {} }]

/-- The class of the method has another handle if the other class was asked for first. -/
theorem history_independence_twoClasses :
    let world : World := { table := .twoClasses }
    let start : SessionState ReturnTypes := .start world.table.returnTypes
    let s := (Query.function ⟨1⟩ : Query ReturnTypes _).after world.session start
    let t := (Query.function ⟨1⟩ : Query ReturnTypes _).after world.session
      ((Query.classLike ⟨2⟩ : Query ReturnTypes _).after world.session start)
    let parent : Query ReturnTypes (Option NodeId) :=
      (Operation.read ⟨0⟩ (.field .functionParent)).query
    (∃ u, parent world.session s = .ok (some ⟨.classLike, 0⟩) u) ∧
      (∃ u, parent world.session t = .ok (some ⟨.classLike, 1⟩) u) ∧
      View.node.option.Alike (parent world.session s) (parent world.session t) := by
  intro world start s t parent
  have hs : world.History s := .operate (.wrap (.function ⟨1⟩)) .start trivial
  have ht : world.History t :=
    .operate (.wrap (.function ⟨1⟩)) (.operate (.wrap (.classLike ⟨2⟩)) .start trivial) trivial
  have hat : (Entity.function ⟨1⟩).At s.caches ⟨0⟩ := ⟨_, rfl, rfl⟩
  have hat' : (Entity.function ⟨1⟩).At t.caches ⟨0⟩ := ⟨_, rfl, rfl⟩
  have halike := (history_independence hs ht).2.2 hat hat' (.field .functionParent)
  exact ⟨⟨_, rfl⟩, ⟨_, rfl⟩, halike⟩

end SymbolGraph
