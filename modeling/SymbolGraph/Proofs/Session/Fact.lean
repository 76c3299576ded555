import Mathlib.Data.List.Forall2
import SymbolGraph.Proofs.Session.Identity

/-!
# Facts

What is known of the answer of a query. Facts are about what the caches hold, and since caches only
grow, what is known once is known for good.
-/

namespace SymbolGraph

variable {α β : Type} {caches later : Caches} {kind : Kind}

/-! ## Issued handles -/

/-- The handle was issued for the wrapper. -/
def Caches.Issued (caches : Caches) (handle : Handle kind) (w : kind.Wrapper) : Prop :=
  (caches.get kind).get handle.index = some w

theorem Caches.Issued.grows {handle : Handle kind} {w : kind.Wrapper} (h : caches.Issued handle w)
    (hgrows : caches.Grows later) : later.Issued handle w :=
  (hgrows kind).get h

/-- The session has handed this handle out. -/
def Handle.Issued (caches : Caches) (h : Handle kind) : Prop :=
  ∃ w, (caches.get kind).get h.index = some w

theorem Handle.Issued.grows {h : Handle kind} (hissued : h.Issued caches)
    (hgrows : caches.Grows later) : h.Issued later := by
  obtain ⟨w, hw⟩ := hissued
  exact ⟨w, (hgrows kind).get hw⟩

def NodeId.Issued (caches : Caches) (node : NodeId) : Prop := node.handle.Issued caches

theorem Query.find?_of_issued {σ : Type} {session : Session σ} {s : SessionState σ}
    {handle : Handle kind} {w : kind.Wrapper} (h : s.caches.Issued handle w) :
    Query.find? handle session s = .ok (some w) s := by
  rw [Query.find?_apply]
  exact congrArg (EStateM.Result.ok · s) h

theorem Caches.Issued.node {kind : NodeKind} {handle : Handle (.node kind)} {w : kind.Wrapper}
    (h : caches.Issued handle w) : handle.node.Issued caches :=
  ⟨w, h⟩

theorem NodeId.Issued.grows {node : NodeId} (h : node.Issued caches) (hgrows : caches.Grows later) :
    node.Issued later :=
  Handle.Issued.grows h hgrows

/-! ## Facts -/

/-- Something known of an answer. It stays known when the caches grow. -/
structure Fact (α : Type) where
  Holds : Caches → α → Prop
  grows : ∀ {caches later : Caches} {a : α}, Holds caches a → caches.Grows later → Holds later a

namespace Fact

/-- Nothing in particular. -/
def any : Fact α where
  Holds _ _ := True
  grows h _ := h

def plain (P : α → Prop) : Fact α where
  Holds _ := P
  grows h _ := h

/-- The wrapper was issued under a handle. -/
def issued (handle : Handle kind) : Fact kind.Wrapper where
  Holds caches w := caches.Issued handle w
  grows h hgrows := h.grows hgrows

/-- Something that depends on what cannot be seen from the answer. -/
def forSome {ι : Type} (F : ι → Fact α) : Fact α where
  Holds caches a := ∃ i, (F i).Holds caches a
  grows := fun ⟨i, h⟩ hgrows => ⟨i, (F i).grows h hgrows⟩

def and (F G : Fact α) : Fact α where
  Holds caches a := F.Holds caches a ∧ G.Holds caches a
  grows h hgrows := ⟨F.grows h.1 hgrows, G.grows h.2 hgrows⟩

/-- A handle that matters for the answer was issued for a wrapper. -/
def given (handle : Handle kind) (w : kind.Wrapper) : Fact α where
  Holds caches _ := caches.Issued handle w
  grows h hgrows := h.grows hgrows

/-- The items of a list one by one. -/
def forall₂ (F : β → Fact α) (bs : List β) : Fact (List α) where
  Holds caches as := List.Forall₂ (fun a b => (F b).Holds caches a) as bs
  grows h hgrows := h.imp fun _ b hab => (F b).grows hab hgrows

/-- Each item of a list. -/
def each (F : Fact α) : Fact (List α) where
  Holds caches as := ∀ a ∈ as, F.Holds caches a
  grows h hgrows := fun a ha => F.grows (h a ha) hgrows

/-- The answer if there is one. -/
def option (F : Fact α) : Fact (Option α) where
  Holds caches o := ∀ a ∈ o, F.Holds caches a
  grows h hgrows := fun a ha => F.grows (h a ha) hgrows

/-- Something known of the second part of a pair. -/
def second (F : Fact β) : Fact (α × β) where
  Holds caches p := F.Holds caches p.2
  grows h hgrows := F.grows h hgrows

theorem option_none {F : Fact α} : F.option.Holds caches none := by
  rintro _ ⟨⟩

theorem option_some {F : Fact α} {a : α} (h : F.Holds caches a) : F.option.Holds caches (some a) := by
  rintro _ ⟨⟩
  exact h

end Fact

end SymbolGraph
