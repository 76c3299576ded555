import SymbolGraph.Proofs.Session.Identity

/-!
# Failures and successes of fields

A request that fails leaves nothing behind that a later one could stumble over: what could
not be wrapped is not in a cache, and a field that could not be found out has an empty cell.
What was found out is there for good.
-/

namespace SymbolGraph

variable {σ : Type} {session : Session σ} {s t : SessionState σ}

/-! ## Requests that fail -/

/-- A wrapper is created only when everything that can fail is over. -/
theorem Wraps.sameSession_of_error {kind : Kind} {key : kind.Key} {q : Query σ kind.Wrapper}
    (h : Wraps kind key q) {e : GraphError} (herr : q session s = .error e t) :
    s.SameSession t := by
  obtain ⟨make, hmake, rfl⟩ := h
  rw [Query.wrap_apply] at herr
  split at herr
  · cases herr
  · split at herr
    · cases herr
    · rename_i hrun
      cases herr
      have hsame := hmake.consult.sameSession session s
      rw [Action.after_of_error hrun] at hsame
      exact hsame

theorem Query.declaration_sameSession_of_error {key : SymbolKey} {e : GraphError}
    (herr : Query.declaration key session s = .error e t) : s.SameSession t := by
  have hrequest : s.SameSession ((Query.request (·.symbol key)).after session s) :=
    (Consult.inquire (.symbol key)).sameSession session s
  rcases Action.bind_eq_error herr with hfirst | ⟨symbol, s', hfirst, herr⟩
  · rw [Action.after_of_error hfirst] at hrequest
    exact hrequest
  · rw [Action.after_of_ok hfirst] at hrequest
    apply hrequest.trans
    -- Nothing fails after the symbol is wrapped, so it is the wrapping that failed.
    have hwrap {kind : Kind} {key : kind.Key} {q : Query σ kind.Wrapper} (hq : Wraps kind key q)
        {f : kind.Wrapper → Declaration}
        (h : (q >>= fun w => pure (f w)) session s' = .error e t) : s'.SameSession t := by
      rcases Action.bind_eq_error h with h | ⟨_, _, _, h⟩
      · exact hq.sameSession_of_error h
      · cases h
    cases hdetails : symbol.details <;> rw [hdetails] at herr
    case classLike details => exact hwrap (Query.classLike_wraps key) herr
    case function details => exact hwrap (Query.function_wraps key) herr
    case property details => exact hwrap (Query.property_wraps key) herr
    case typeParameter details => exact hwrap (Query.typeParameter_wraps key) herr
    all_goals
      cases herr
      exact .refl _

/-! ## Fields -/

namespace Kept

variable {reads : FunctionNode → Prop} {cell : Cell} {q : Query σ cell.Value}

theorem get?_of_error (h : Kept reads cell q) {e : GraphError} (herr : q session s = .error e t) :
    t.memo.get? cell = none := by
  obtain ⟨_, compute, _, hempty, rfl⟩ := h
  obtain ⟨hcell, hcompute⟩ := Query.memoize_eq_error herr
  exact hempty session s e t hcell hcompute

theorem get?_of_ok (h : Kept reads cell q) {v : cell.Value} (hok : q session s = .ok v t) :
    t.memo.get? cell = some v := by
  obtain ⟨_, compute, _, _, rfl⟩ := h
  exact Query.get?_of_memoize hok

theorem of_get? (h : Kept reads cell q) {v : cell.Value} (hv : s.memo.get? cell = some v)
    (session : Session σ) : q session s = .ok v s := by
  obtain ⟨_, compute, _, _, rfl⟩ := h
  exact Query.memoize_of_get? hv compute

end Kept

/-- A reading begins with the lookup of its handle. -/
theorem Operation.read_of_get {kind : Kind} {α : Type} {h : Handle kind} {r : Reading kind α}
    {w : kind.Wrapper} (hw : (s.caches.get kind).get h.index = some w) (session : Session σ) :
    (Operation.read h r).query session s = r.query w session s :=
  Action.bind_of_ok (Query.resolve_of_get session hw) _

theorem Operation.read_of_stale {kind : Kind} {α : Type} {h : Handle kind} {r : Reading kind α}
    (hw : (s.caches.get kind).get h.index = none) (session : Session σ) :
    (Operation.read h r).query session s = .error (.staleHandle kind.name h.index) s := by
  refine Action.bind_of_error ?_ _
  rw [Query.resolve_apply, hw]

/-! ## The law of kept fields -/

/-- In every state of a run, a request for a wrapper that fails leaves the session as it was. A field
that cannot be read has an empty cell afterwards, all other filled cells are as they were, and the
caches are only extended; with a handle that was not issued there is no cell, and nothing happens.
A field that was read once has the same value for the rest of the run, and reading it again changes
nothing, whatever the front end would answer. -/
theorem reaches_memo {session : Session σ} {oracle : σ} {s : SessionState σ}
    (hs : Reaches session (.start oracle) s) :
    (∀ {kind e t} (w : Wrapping kind), w.query session s = .error e t → s.SameSession t) ∧
    (∀ {key e t}, Query.declaration key session s = .error e t → s.SameSession t) ∧
    (∀ {kind field e t} (f : LazyField kind field) (h : Handle kind),
      (Operation.read h (.field f)).query session s = .error e t →
        ((s.caches.get kind).get h.index = none ∧ e = .staleHandle kind.name h.index ∧ t = s) ∨
        ((s.caches.get kind).get h.index ≠ none ∧ t.memo.get? (h.cell field) = none ∧ s.Grows t)) ∧
    (∀ {kind field v t} (f : LazyField kind field) (h : Handle kind),
      (Operation.read h (.field f)).query session s = .ok v t →
        t.memo.get? (h.cell field) = some v ∧
        ∀ {u}, Reaches session t u → ∀ later : Session σ,
          (Operation.read h (.field f)).query later u = .ok v u) := by
  have wf : s.caches.WellFormed := hs.wellFormed .empty
  -- The cell of an issued handle is the cell of the wrapper that carries the handle.
  have hkept {kind : Kind} {field : Field} (f : LazyField kind field) {h : Handle kind}
      {w : kind.Wrapper} (hw : (s.caches.get kind).get h.index = some w) (session : Session σ) :
      ∃ q, Kept (fun _ => True) (h.cell field) q ∧ f.read w session = q session := by
    have hid : kind.idOf w = h := congrArg Handle.mk ((wf kind).numbered hw)
    have hread := @LazyField.read_kept σ kind field (fun _ => True) f w (fun _ _ _ => trivial) session
    rw [hid] at hread
    exact hread
  refine ⟨?_, ?_, ?_, ?_⟩
  · intro kind e t w herr
    exact w.query_wraps.sameSession_of_error herr
  · intro key e t herr
    exact Query.declaration_sameSession_of_error herr
  · intro kind field e t f h herr
    have hgrows : s.Grows t := by
      have hsteps := (Operation.read h (.field f)).query_steps session s
      rw [Action.after_of_error herr] at hsteps
      exact hsteps.grows
    cases hw : (s.caches.get kind).get h.index with
    | none =>
      rw [Operation.read_of_stale hw] at herr
      cases herr
      exact .inl ⟨rfl, rfl, rfl⟩
    | some w =>
      obtain ⟨q, hq, hread⟩ := hkept f hw session
      -- A filled cell cannot fail and a failure does not fill it, so the cell is empty.
      rw [Operation.read_of_get hw, Reading.query, hread] at herr
      exact .inr ⟨Option.some_ne_none w, hq.get?_of_error herr, hgrows⟩
  · intro kind field v t f h hok
    cases hw : (s.caches.get kind).get h.index with
    | none =>
      rw [Operation.read_of_stale hw] at hok
      cases hok
    | some w =>
      obtain ⟨q, hq, hread⟩ := hkept f hw session
      have hsteps := (Operation.read h (.field f)).query_steps session s
      rw [Action.after_of_ok hok] at hsteps
      rw [Operation.read_of_get hw, Reading.query, hread] at hok
      have hcell : t.memo.get? (h.cell field) = some v := hq.get?_of_ok hok
      refine ⟨hcell, ?_⟩
      intro u hu later
      have hgrows : s.Grows u := hsteps.grows.trans hu.grows
      obtain ⟨q', hq', hread'⟩ := hkept f hw later
      rw [Operation.read_of_get (hgrows.get hw), Reading.query, hread']
      exact hq'.of_get? (hu.grows.memo hcell) later

/-- The kind of the class is not known, so its modifiers are not either. -/
theorem reaches_memo_soleClass :
    let session : Session ReturnTypes := { oracle := SymbolTable.soleClass.oracle }
    let s := (Query.classLike ⟨0⟩ : Query ReturnTypes _).after session (.start {})
    ∃ e t, (Operation.read ⟨0⟩ (.field .classModifiers)).query session s = .error e t ∧
      t.memo.get? ⟨.node .classLike, 0, .modifiers⟩ = none := by
  intro session s
  have hs : Reaches session (.start {}) s := .operate (.wrap (.classLike ⟨0⟩)) .stay
  have hmemo := reaches_memo hs
  refine ⟨_, _, rfl, ?_⟩
  rcases hmemo.2.2.1 .classModifiers (⟨0⟩ : ClassId) rfl with ⟨hstale, _, _⟩ | ⟨_, hcell, _⟩
  · cases hstale
  · exact hcell

end SymbolGraph
