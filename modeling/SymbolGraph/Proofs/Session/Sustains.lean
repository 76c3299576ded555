import SymbolGraph.Proofs.Session.Fact

/-!
# Queries that sustain a law

A query sustains a law of the session if it keeps every state lawful, whether it fails or not, and its
answers are as a fact says. There is one rule for each way of putting queries together, so what a query
sustains is found out from its definition, step by step. Nothing is said of when a query fails.
-/

namespace SymbolGraph

variable {σ α β γ : Type} {session : Session σ} {law : SessionState σ → Prop}
  {caches later : Caches} {kind : Kind}

/-- In all lawful states whose caches extend these ones, the query leaves a lawful state behind and the
fact holds of its answer. -/
def Sustains (session : Session σ) (law : SessionState σ → Prop) (caches : Caches) (q : Query σ α)
    (F : Fact α) : Prop :=
  ∀ s, law s → caches.Grows s.caches →
    law (q.after session s) ∧ s.caches.Grows (q.after session s).caches ∧
      ∀ {a t}, q session s = .ok a t → F.Holds t.caches a

namespace Sustains

variable {F : Fact α} {G : Fact β} {q : Query σ α}

theorem grows (h : Sustains session law caches q F) (hgrows : caches.Grows later) :
    Sustains session law later q F :=
  fun s hs hlater => h s hs (hgrows.trans hlater)

/-- What holds of all lawful states may be used. -/
theorem of_law (h : ∀ {s}, law s → caches.Grows s.caches → Sustains session law s.caches q F) :
    Sustains session law caches q F :=
  fun s hs hgrows => h hs hgrows s hs (.refl _)

theorem mono {F' : Fact α} (h : Sustains session law caches q F)
    (hF : ∀ {a later}, caches.Grows later → F.Holds later a → F'.Holds later a) :
    Sustains session law caches q F' := by
  intro s hs hgrows
  obtain ⟨hlaw, hlater, hfact⟩ := h s hs hgrows
  refine ⟨hlaw, hlater, fun hok => ?_⟩
  rw [Action.after_of_ok hok] at hlater
  exact hF (hgrows.trans hlater) (hfact hok)

/-- What is known after an answer. -/
theorem of_ok {s t : SessionState σ} {a : α} (h : Sustains session law s.caches q F) (hs : law s)
    (hok : q session s = .ok a t) : law t ∧ s.caches.Grows t.caches ∧ F.Holds t.caches a := by
  obtain ⟨hlaw, hgrows, hfact⟩ := h s hs (.refl _)
  rw [Action.after_of_ok hok] at hlaw hgrows
  exact ⟨hlaw, hgrows, hfact hok⟩

theorem to_any (h : Sustains session law caches q F) : Sustains session law caches q .any :=
  h.mono fun _ _ => trivial

/-! ## Sequences -/

theorem pure {a : α} (h : F.Holds caches a) : Sustains session law caches (pure a) F := by
  intro s hs hgrows
  refine ⟨hs, .refl _, fun hok => ?_⟩
  cases hok
  exact F.grows h hgrows

theorem throw (e : GraphError) : Sustains session law caches (throw e) F := by
  intro s hs _
  refine ⟨hs, .refl _, fun hok => ?_⟩
  cases hok

/-- What would come after a failure does not matter. -/
theorem throw_bind {e : GraphError} {f : α → Query σ β} :
    Sustains session law caches (MonadExcept.throw e >>= f) G :=
  .throw e

theorem bind {x : Query σ α} {f : α → Query σ β} (hx : Sustains session law caches x F)
    (hf : ∀ {a later}, caches.Grows later → F.Holds later a → Sustains session law later (f a) G) :
    Sustains session law caches (x >>= f) G := by
  intro s hs hgrows
  obtain ⟨hlaw, hlater, hfact⟩ := hx s hs hgrows
  cases hrun : x session s with
  | ok a t =>
    rw [Action.after_of_ok hrun] at hlaw hlater
    -- The second part starts from the state that the first one left behind.
    obtain ⟨hlaw', hlater', hfact'⟩ := hf (hgrows.trans hlater) (hfact hrun) t hlaw (.refl _)
    rw [Action.after, Action.bind_of_ok hrun]
    exact ⟨hlaw', hlater.trans hlater', hfact'⟩
  | error e t =>
    rw [Action.after_of_error hrun] at hlaw hlater
    rw [Action.after, Action.bind_of_error hrun]
    exact ⟨hlaw, hlater, fun hok => by cases hok⟩

/-- The last thing done to an answer. -/
theorem map {x : Query σ α} {f : α → β} (hx : Sustains session law caches x F)
    (hf : ∀ {a later}, F.Holds later a → G.Holds later (f a)) :
    Sustains session law caches (x >>= fun a => Pure.pure (f a)) G :=
  hx.bind fun _ hfact => .pure (hf hfact)

theorem mapM {κ : Type} {f : κ → Query σ α} {F : κ → Fact α}
    (h : ∀ key, Sustains session law caches (f key) (F key)) (keys : List κ) :
    Sustains session law caches (keys.mapM f) (.forall₂ F keys) := by
  induction keys with
  | nil =>
    rw [List.mapM_nil]
    exact .pure .nil
  | cons key keys ih =>
    rw [List.mapM_cons]
    refine .bind (h key) fun hgrows hfirst => ?_
    refine .bind (ih.grows hgrows) fun hgrows hrest => ?_
    exact .pure (.cons ((F key).grows hfirst hgrows) hrest)

theorem mapM_each {κ : Type} {f : κ → Query σ α}
    (h : ∀ key, Sustains session law caches (f key) F) (keys : List κ) :
    Sustains session law caches (keys.mapM f) (.each F) := by
  refine (mapM h keys).mono fun _ hitems => ?_
  induction hitems with
  | nil => exact fun a ha => by cases ha
  | cons hfirst _ ih => exact List.forall_mem_cons.mpr ⟨hfirst, ih⟩

/-- A visit on data of its own hands them back, also if it fails. -/
theorem run {δ : Type} {D : Fact δ} {visit : Visit σ δ α} {data : δ}
    (h : ∀ s, law s → caches.Grows s.caches →
      law (visit.after session (data, s)).2 ∧
        s.caches.Grows (visit.after session (data, s)).2.caches ∧
        D.Holds (visit.after session (data, s)).2.caches (visit.after session (data, s)).1) :
    Sustains session law caches (visit.run data) (.second D) := by
  intro s hs hgrows
  have hvisit := h s hs hgrows
  rw [Action.after, Visit.run]
  rw [Action.after] at hvisit
  cases hrun : visit session (data, s) with
  | ok | error =>
    rw [hrun] at hvisit
    refine ⟨hvisit.1, hvisit.2.1, fun hok => ?_⟩
    cases hok
    exact hvisit.2.2

/-! ## Primitives -/

theorem of_sameSession (hlaw : ∀ {s t}, law s → s.SameSession t → law t)
    (h : ∀ s : SessionState σ, s.SameSession (q.after session s)) :
    Sustains session law caches q .any := by
  intro s hs _
  exact ⟨hlaw hs (h s), (h s).grows.caches, fun _ => trivial⟩

/-- A fact that does not depend on the session follows from the answer alone. -/
theorem with_plain {P : α → Prop} (h : Sustains session law caches q .any)
    (hP : ∀ {s a t}, q session s = .ok a t → P a) : Sustains session law caches q (.plain P) := by
  intro s hs hgrows
  obtain ⟨hlaw, hlater, _⟩ := h s hs hgrows
  exact ⟨hlaw, hlater, fun hok => hP hok⟩

theorem resolve (handle : Handle kind) :
    Sustains session law caches (Query.resolve handle) (.issued handle) := by
  intro s hs _
  rw [Query.resolve_after]
  refine ⟨hs, .refl _, fun hok => ?_⟩
  obtain ⟨hw, rfl⟩ := Query.resolve_eq_ok hok
  exact hw

/-- A wrapper is found or made. -/
theorem wrap {key : kind.Key} {make : Query σ (Handle kind → kind.Wrapper)} {F : Fact kind.Wrapper}
    {P : Fact (Handle kind → kind.Wrapper)} (hmake : Sustains session law caches make P)
    (hcreate : ∀ {s build}, law s → P.Holds s.caches build → law (s.create kind key build).2)
    (hfound : ∀ {s w}, law s → (s.caches.get kind).lookup key = some w → F.Holds s.caches w) :
    Sustains session law caches (Query.wrap kind key make) F := by
  intro s hs hgrows
  rw [Action.after, Query.wrap_apply]
  cases hlookup : (s.caches.get kind).lookup key with
  | some w =>
    refine ⟨hs, .refl _, fun hok => ?_⟩
    cases hok
    exact hfound hs hlookup
  | none =>
    obtain ⟨hlaw, hlater, hplan⟩ := hmake s hs hgrows
    cases hrun : make session s with
    | ok build t =>
      rw [Action.after_of_ok hrun] at hlaw hlater
      have hcreated := hcreate hlaw (hplan hrun)
      refine ⟨hcreated, hlater.trans (t.create_grows key build).caches, fun hok => ?_⟩
      cases hok
      exact hfound hcreated (Query.lookup_create t key build)
    | error e t =>
      rw [Action.after_of_error hrun] at hlaw hlater
      exact ⟨hlaw, hlater, fun hok => by cases hok⟩

/-- A field was kept before, or is found out and kept. -/
theorem memoize {cell : Cell} {compute : Query σ cell.Value} {F : Fact cell.Value}
    (hcompute : Sustains session law caches compute F)
    (hfill : ∀ {s v}, law s → caches.Grows s.caches → F.Holds s.caches v → law (s.fill cell v).2)
    (hheld : ∀ {s v}, law s → caches.Grows s.caches → s.memo.get? cell = some v →
      F.Holds s.caches v) :
    Sustains session law caches (Query.memoize cell compute) F := by
  intro s hs hgrows
  rw [Action.after, Query.memoize_apply]
  cases hcell : s.memo.get? cell with
  | some v =>
    refine ⟨hs, .refl _, fun hok => ?_⟩
    cases hok
    exact hheld hs hgrows hcell
  | none =>
    obtain ⟨hlaw, hlater, hfact⟩ := hcompute s hs hgrows
    cases hrun : compute session s with
    | ok v t =>
      rw [Action.after_of_ok hrun] at hlaw hlater
      have hkept := (t.fill_grows cell v).caches
      have hfilled := hfill hlaw (hgrows.trans hlater) (hfact hrun)
      refine ⟨hfilled, hlater.trans hkept, fun hok => ?_⟩
      -- The computation may have filled the cell itself.
      have hcell' := Query.get?_fill t cell v
      cases hok
      exact hheld hfilled ((hgrows.trans hlater).trans hkept) hcell'
    | error e t =>
      rw [Action.after_of_error hrun] at hlaw hlater
      exact ⟨hlaw, hlater, fun hok => by cases hok⟩

end Sustains

end SymbolGraph
