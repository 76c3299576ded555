import SymbolGraph.Proofs.Session.Primitives

/-!
# Queries that succeed

What a sequence needs to succeed, and what a wrapper or a kept field needs. Something that was found
before is found again, so only the first time counts.
-/

namespace SymbolGraph

variable {σ τ α β : Type}

/-- The action has an answer. -/
def Action.Succeeds (x : Action σ τ α) (session : Session σ) (s : τ) : Prop :=
  ∃ a t, x session s = .ok a t

namespace Action.Succeeds

variable {session : Session σ} {s : τ}

theorem pure (a : α) : (Pure.pure a : Action σ τ α).Succeeds session s := ⟨a, s, rfl⟩

theorem bind {x : Action σ τ α} {f : α → Action σ τ β} (hx : x.Succeeds session s)
    (hf : ∀ {a t}, x session s = .ok a t → (f a).Succeeds session t) :
    (x >>= f).Succeeds session s := by
  obtain ⟨a, t, hrun⟩ := hx
  obtain ⟨b, u, hrest⟩ := hf hrun
  exact ⟨b, u, by rw [bind_of_ok hrun, hrest]⟩

/-- The first part is known to have this answer. -/
theorem bind_ok {x : Action σ τ α} {f : α → Action σ τ β} {a : α} {t : τ}
    (hx : x session s = .ok a t) (hf : (f a).Succeeds session t) :
    (x >>= f).Succeeds session s := by
  rwa [Succeeds, bind_of_ok hx]

/-- The last thing done to an answer cannot fail. -/
theorem map {x : Action σ τ α} (hx : x.Succeeds session s) (f : α → β) :
    (x >>= fun a => Pure.pure (f a)).Succeeds session s :=
  hx.bind fun _ => .pure _

end Action.Succeeds

namespace Query

variable {session : Session σ} {s : SessionState σ}

theorem wrap_succeeds {kind : Kind} {key : kind.Key}
    {make : Query σ (Handle kind → kind.Wrapper)} (h : make.Succeeds session s) :
    (wrap kind key make).Succeeds session s := by
  obtain ⟨build, t, hrun⟩ := h
  rw [Action.Succeeds, wrap_apply, hrun]
  split <;> exact ⟨_, _, rfl⟩

theorem memoize_succeeds {cell : Cell} {compute : Query σ cell.Value}
    (h : compute.Succeeds session s) : (memoize cell compute).Succeeds session s := by
  obtain ⟨v, t, hrun⟩ := h
  rw [Action.Succeeds, memoize_apply, hrun]
  split <;> exact ⟨_, _, rfl⟩

end Query

end SymbolGraph
