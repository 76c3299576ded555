import SymbolGraph.Proofs.Identity.Growth
import SymbolGraph.Session.Query

/-!
# What the primitives of a session do

Each primitive query as an equation between outcomes, and the order in which the states of
a session come: a later state has every wrapper and every filled cell of an earlier one.
-/

namespace SymbolGraph

variable {σ τ α β : Type}

/-! ## Outcomes -/

/-- The state that an action leaves behind, whether it fails or not. -/
def Action.after (x : Action σ τ α) (session : Session σ) (s : τ) : τ :=
  match x session s with
  | .ok _ s' => s'
  | .error _ s' => s'

theorem Action.after_of_ok {x : Action σ τ α} {session : Session σ} {s s' : τ} {a : α}
    (h : x session s = .ok a s') : x.after session s = s' := by
  rw [Action.after, h]

theorem Action.after_of_error {x : Action σ τ α} {session : Session σ} {s s' : τ} {e : GraphError}
    (h : x session s = .error e s') : x.after session s = s' := by
  rw [Action.after, h]

theorem Action.bind_of_ok {x : Action σ τ α} {session : Session σ} {s s' : τ} {a : α}
    (h : x session s = .ok a s') (f : α → Action σ τ β) :
    (x >>= f) session s = f a session s' := by
  rw [Action.bind_apply, h]

theorem Action.bind_of_error {x : Action σ τ α} {session : Session σ} {s s' : τ} {e : GraphError}
    (h : x session s = .error e s') (f : α → Action σ τ β) :
    (x >>= f) session s = .error e s' := by
  rw [Action.bind_apply, h]

/-- The answer of an action, if it has one. -/
def Action.answer? (x : Action σ τ α) (session : Session σ) (s : τ) : Option α :=
  match x session s with
  | .ok a _ => some a
  | .error _ _ => none

theorem Action.exists_ok_of_answer? {x : Action σ τ α} {session : Session σ} {s : τ} {a : α}
    (h : x.answer? session s = some a) : ∃ s', x session s = .ok a s' := by
  rw [answer?] at h
  cases hrun : x session s <;> rw [hrun] at h <;> cases h
  exact ⟨_, rfl⟩

/-- The error of an action, if it fails. -/
def Action.failure? (x : Action σ τ α) (session : Session σ) (s : τ) : Option GraphError :=
  match x session s with
  | .ok _ _ => none
  | .error e _ => some e

theorem Action.exists_error_of_failure? {x : Action σ τ α} {session : Session σ} {s : τ} {e : GraphError}
    (h : x.failure? session s = some e) : ∃ s', x session s = .error e s' := by
  rw [failure?] at h
  cases hrun : x session s <;> rw [hrun] at h <;> cases h
  exact ⟨_, rfl⟩

/-- What holds after the first part of a sequence, and again after the second part if there is one, holds
after the sequence. -/
theorem Action.after_bind {x : Action σ τ α} {f : α → Action σ τ β} {session : Session σ} {s : τ}
    {P : τ → Prop} (hx : P (x.after session s))
    (hf : ∀ {a t}, x session s = .ok a t → P ((f a).after session t)) :
    P ((x >>= f).after session s) := by
  rw [Action.after, Action.bind_apply]
  cases hrun : x session s with
  | ok a t => exact hf hrun
  | error e t =>
    rw [Action.after_of_error hrun] at hx
    exact hx

/-- A sequence succeeds only if both of its parts do. -/
theorem Action.bind_eq_ok {x : Action σ τ α} {f : α → Action σ τ β} {session : Session σ}
    {s t : τ} {b : β} (h : (x >>= f) session s = .ok b t) :
    ∃ a s', x session s = .ok a s' ∧ f a session s' = .ok b t := by
  rw [Action.bind_apply] at h
  cases hx : x session s with
  | ok a s' => rw [hx] at h; exact ⟨a, s', rfl, h⟩
  | error e s' => rw [hx] at h; cases h

/-- A sequence fails in its first part, or in its second part after the first one went well. -/
theorem Action.bind_eq_error {x : Action σ τ α} {f : α → Action σ τ β} {session : Session σ}
    {s t : τ} {e : GraphError} (h : (x >>= f) session s = .error e t) :
    x session s = .error e t ∨ ∃ a s', x session s = .ok a s' ∧ f a session s' = .error e t := by
  rw [Action.bind_apply] at h
  cases hx : x session s with
  | ok a s' => rw [hx] at h; exact .inr ⟨a, s', rfl, h⟩
  | error e' s' => rw [hx] at h; cases h; exact .inl rfl

/-- Sequences with the same first part differ only if their second parts do after it. -/
theorem Action.bind_congr {x : Action σ τ α} {f g : α → Action σ τ β} {session : Session σ} {s : τ}
    (h : ∀ a t, x session s = .ok a t → f a session t = g a session t) :
    (x >>= f) session s = (x >>= g) session s := by
  rw [Action.bind_apply, Action.bind_apply]
  cases hx : x session s with
  | ok a t => exact h a t hx
  | error e t => rfl

namespace Visit

variable {δ : Type} {q : Query σ α} {session : Session σ}

theorem ofQuery_after (x : δ × SessionState σ) :
    (ofQuery q).after session x = (x.1, q.after session x.2) := by
  rw [Action.after, Action.after, ofQuery]
  cases q session x.2 <;> rfl

theorem ofQuery_of_ok {x : δ × SessionState σ} {a : α} {t : SessionState σ}
    (h : q session x.2 = .ok a t) : ofQuery q session x = .ok a (x.1, t) := by
  rw [ofQuery, h]

theorem ofQuery_of_error {x : δ × SessionState σ} {e : GraphError} {t : SessionState σ}
    (h : q session x.2 = .error e t) : ofQuery q session x = .error e (x.1, t) := by
  rw [ofQuery, h]

theorem ofQuery_eq_ok {x y : δ × SessionState σ} {a : α} (h : ofQuery q session x = .ok a y) :
    q session x.2 = .ok a y.2 := by
  rw [ofQuery] at h
  cases hrun : q session x.2 with
  | ok b s => rw [hrun] at h; cases h; rfl
  | error e s => rw [hrun] at h; cases h

/-- A query leaves the data as they are. -/
theorem eq_of_ofQuery {x y : δ × SessionState σ} {a : α} (h : ofQuery q session x = .ok a y) :
    y = (x.1, y.2) := by
  have hafter := Action.after_of_ok h
  rw [ofQuery_after] at hafter
  rw [← hafter]

theorem bind_ofQuery_eq_ok {f : α → Visit σ δ β} {x y : δ × SessionState σ} {b : β}
    (h : (ofQuery q >>= f) session x = .ok b y) :
    ∃ a s, q session x.2 = .ok a s ∧ f a session (x.1, s) = .ok b y := by
  obtain ⟨a, z, hq, hf⟩ := Action.bind_eq_ok h
  rw [eq_of_ofQuery hq] at hf
  exact ⟨a, z.2, ofQuery_eq_ok hq, hf⟩

theorem bind_ofQuery_congr {f g : α → Visit σ δ β} {x : δ × SessionState σ}
    (h : ∀ a s, q session x.2 = .ok a s → f a session (x.1, s) = g a session (x.1, s)) :
    (ofQuery q >>= f) session x = (ofQuery q >>= g) session x := by
  refine Action.bind_congr fun a y hq => ?_
  rw [eq_of_ofQuery hq]
  exact h a y.2 (ofQuery_eq_ok hq)

end Visit

namespace Query

variable (session : Session σ) (s : SessionState σ)

theorem ask_apply (question : Oracle σ → StateM σ α) :
    ask question session s =
      .ok (question session.oracle s.oracle).1
        { s with oracle := (question session.oracle s.oracle).2 } := rfl

theorem request_apply (question : Oracle σ → Answer σ α) :
    request question session s = match question session.oracle s.oracle with
      | (.ok answer, oracle) => .ok answer { s with oracle }
      | (.error e, oracle) => .error (.oracle e) { s with oracle } := by
  rw [request, Action.bind_apply, ask_apply]
  rcases question session.oracle s.oracle with ⟨_ | _, _⟩ <;> rfl

theorem request_after (question : Oracle σ → Answer σ α) :
    (request question).after session s =
      { s with oracle := (question session.oracle s.oracle).2 } := by
  rw [Action.after, request_apply]
  rcases question session.oracle s.oracle with ⟨_ | _, _⟩ <;> rfl

theorem find?_apply {kind : Kind} (h : Handle kind) :
    find? h session s = .ok ((s.caches.get kind).get h.index) s := rfl

theorem resolve_apply {kind : Kind} (h : Handle kind) :
    resolve h session s = match (s.caches.get kind).get h.index with
      | some wrapper => .ok wrapper s
      | none => .error (.staleHandle kind.name h.index) s := by
  rw [resolve, Action.bind_apply, find?_apply]
  cases (s.caches.get kind).get h.index <;> rfl

theorem resolve_after {kind : Kind} (h : Handle kind) : (resolve h).after session s = s := by
  rw [Action.after, resolve_apply]
  cases (s.caches.get kind).get h.index <;> rfl

variable {s} in
theorem resolve_of_get {kind : Kind} {h : Handle kind} {w : kind.Wrapper}
    (hw : (s.caches.get kind).get h.index = some w) : resolve h session s = .ok w s := by
  rw [resolve_apply, hw]

variable {session s} in
theorem resolve_eq_ok {kind : Kind} {h : Handle kind} {w : kind.Wrapper} {t : SessionState σ}
    (hok : resolve h session s = .ok w t) :
    (s.caches.get kind).get h.index = some w ∧ t = s := by
  rw [resolve_apply] at hok
  split at hok
  · cases hok
    exact ⟨by assumption, rfl⟩
  · cases hok

variable {session s} in
/-- Only handles that were not issued are stale. -/
theorem resolve_eq_error {kind : Kind} {h : Handle kind} {e : GraphError} {t : SessionState σ}
    (herr : resolve h session s = .error e t) :
    (s.caches.get kind).get h.index = none ∧ e = .staleHandle kind.name h.index ∧ t = s := by
  rw [resolve_apply] at herr
  split at herr
  · cases herr
  · cases herr
    exact ⟨by assumption, rfl, rfl⟩

theorem wrap_apply (kind : Kind) (key : kind.Key)
    (make : Query σ (Handle kind → kind.Wrapper)) :
    wrap kind key make session s = match (s.caches.get kind).lookup key with
      | some found => .ok found s
      | none => match make session s with
        | .ok build s' => .ok (s'.create kind key build).1 (s'.create kind key build).2
        | .error e s' => .error e s' := by
  rw [wrap, Action.bind_apply]
  change (match (s.caches.get kind).lookup key with
    | some found => pure found
    | none => _ : Query σ kind.Wrapper) session s = _
  cases (s.caches.get kind).lookup key with
  | some found => rfl
  | none =>
    change (make >>= _) session s = _
    rw [Action.bind_apply]
    cases make session s <;> rfl

theorem memoize_apply (cell : Cell) (compute : Query σ cell.Value) :
    memoize cell compute session s = match s.memo.get? cell with
      | some value => .ok value s
      | none => match compute session s with
        | .ok value s' => .ok (s'.fill cell value).1 (s'.fill cell value).2
        | .error e s' => .error e s' := by
  rw [memoize, Action.bind_apply]
  change (match s.memo.get? cell with
    | some value => pure value
    | none => _ : Query σ cell.Value) session s = _
  cases s.memo.get? cell with
  | some value => rfl
  | none =>
    change (compute >>= _) session s = _
    rw [Action.bind_apply]
    cases compute session s <;> rfl

variable {session s}

/-- What holds before, after the making and after the creation of a wrapper holds after the request
for it. -/
theorem wrap_after {kind : Kind} {key : kind.Key} {make : Query σ (Handle kind → kind.Wrapper)}
    {P : SessionState σ → Prop} (hs : P s) (hmake : P (make.after session s))
    (hcreate : ∀ {build t}, make session s = .ok build t → P (t.create kind key build).2) :
    P ((wrap kind key make).after session s) := by
  rw [Action.after, wrap_apply]
  cases (s.caches.get kind).lookup key with
  | some w => exact hs
  | none =>
    cases hrun : make session s with
    | ok build t => exact hcreate hrun
    | error e t =>
      rw [Action.after_of_error hrun] at hmake
      exact hmake

/-- What holds before and after the computation of a field, and after its cell is filled, holds after
the field is read. -/
theorem memoize_after {cell : Cell} {compute : Query σ cell.Value} {P : SessionState σ → Prop}
    (hs : P s) (hcompute : P (compute.after session s))
    (hfill : ∀ {v t}, compute session s = .ok v t → P (t.fill cell v).2) :
    P ((memoize cell compute).after session s) := by
  rw [Action.after, memoize_apply]
  cases s.memo.get? cell with
  | some v => exact hs
  | none =>
    cases hrun : compute session s with
    | ok v t => exact hfill hrun
    | error e t =>
      rw [Action.after_of_error hrun] at hcompute
      exact hcompute

theorem wrap_of_lookup {kind : Kind} {key : kind.Key} {w : kind.Wrapper}
    (h : (s.caches.get kind).lookup key = some w)
    (make : Query σ (Handle kind → kind.Wrapper)) : wrap kind key make session s = .ok w s := by
  rw [wrap_apply, h]

theorem lookup_create (s : SessionState σ) {kind : Kind} (key : kind.Key)
    (build : Handle kind → kind.Wrapper) :
    ((s.create kind key build).2.caches.get kind).lookup key = some (s.create kind key build).1 := by
  simp only [SessionState.create, Caches.get_set_self]
  exact IdentityCache.lookup_getOrCreate ..

theorem get?_fill (s : SessionState σ) (cell : Cell) (v : cell.Value) :
    (s.fill cell v).2.memo.get? cell = some (s.fill cell v).1 := by
  rw [SessionState.fill]
  split
  · assumption
  · exact Std.DTreeMap.get?_insert_self

/-- A wrapper that was asked for by its key is found under it from then on. -/
theorem lookup_of_wrap {kind : Kind} {key : kind.Key}
    {make : Query σ (Handle kind → kind.Wrapper)} {w : kind.Wrapper} {t : SessionState σ}
    (h : wrap kind key make session s = .ok w t) : (t.caches.get kind).lookup key = some w := by
  rw [wrap_apply] at h
  split at h
  · cases h
    assumption
  · split at h
    · cases h
      exact lookup_create ..
    · cases h

theorem memoize_of_get? {cell : Cell} {v : cell.Value} (h : s.memo.get? cell = some v)
    (compute : Query σ cell.Value) : memoize cell compute session s = .ok v s := by
  rw [memoize_apply, h]

/-- A memoized query that succeeds leaves its answer in its cell. -/
theorem get?_of_memoize {cell : Cell} {compute : Query σ cell.Value} {v : cell.Value}
    {t : SessionState σ} (h : memoize cell compute session s = .ok v t) :
    t.memo.get? cell = some v := by
  rw [memoize_apply] at h
  split at h
  · cases h
    assumption
  · split at h
    · cases h
      exact get?_fill ..
    · cases h

/-- A memoized query fails only if its cell is empty and the computation fails. -/
theorem memoize_eq_error {cell : Cell} {compute : Query σ cell.Value} {e : GraphError}
    {t : SessionState σ} (h : memoize cell compute session s = .error e t) :
    s.memo.get? cell = none ∧ compute session s = .error e t := by
  rw [memoize_apply] at h
  split at h
  · cases h
  · split at h
    · cases h
    · cases h
      exact ⟨by assumption, by assumption⟩

end Query

/-! ## Growth -/

/-- Every cache of the second session has all that the cache of the first one has. -/
def Caches.Grows (a b : Caches) : Prop := ∀ kind, (a.get kind).Grows (b.get kind)

theorem Caches.Grows.refl (a : Caches) : a.Grows a := fun kind => .refl (a.get kind)

theorem Caches.Grows.trans {a b c : Caches} (h₁ : a.Grows b) (h₂ : b.Grows c) : a.Grows c :=
  fun kind => (h₁ kind).trans (h₂ kind)

theorem Caches.grows_set {caches : Caches} {kind : Kind} {cache : Cache kind}
    (h : (caches.get kind).Grows cache) : caches.Grows (caches.set kind cache) := by
  intro other
  by_cases hkind : other = kind
  · subst hkind
    rw [Caches.get_set_self]
    exact h
  · rw [Caches.get_set_of_ne _ _ hkind]
    exact .refl _

/-- The filled cells of the first memo are filled in the same way in the second one. -/
def Memo.Grows (a b : Memo) : Prop := ∀ {cell v}, a.get? cell = some v → b.get? cell = some v

theorem Memo.get?_insert_of_ne {memo : Memo} {cell other : Cell} {v : cell.Value}
    (h : other ≠ cell) :
    Std.DTreeMap.get? (Std.DTreeMap.insert memo cell v) other = Std.DTreeMap.get? memo other := by
  rw [Std.DTreeMap.get?_insert]
  have hne : ¬ compare cell other = .eq := fun heq => h (Std.compare_eq_iff_eq.mp heq).symm
  simp [hne]

theorem Memo.grows_insert {memo : Memo} {cell : Cell} (h : memo.get? cell = none)
    (v : cell.Value) : memo.Grows (memo.insert cell v) := by
  intro other u hu
  have hne : other ≠ cell := by
    rintro rfl
    rw [h] at hu
    cases hu
  rw [Memo.get?_insert_of_ne hne]
  exact hu

/-- A later state of a session, seen apart from the front end. -/
structure SessionState.Grows (s t : SessionState σ) : Prop where
  caches : s.caches.Grows t.caches
  memo : s.memo.Grows t.memo

namespace SessionState

variable {s t u : SessionState σ}

theorem Grows.refl (s : SessionState σ) : s.Grows s := ⟨.refl _, id⟩

theorem Grows.trans (h₁ : s.Grows t) (h₂ : t.Grows u) : s.Grows u :=
  ⟨h₁.caches.trans h₂.caches, fun h => h₂.memo (h₁.memo h)⟩

/-- The two states are alike but for the front end. -/
structure SameSession (s t : SessionState σ) : Prop where
  caches : t.caches = s.caches
  memo : t.memo = s.memo

theorem SameSession.refl (s : SessionState σ) : s.SameSession s := ⟨rfl, rfl⟩

theorem SameSession.trans (h₁ : s.SameSession t) (h₂ : t.SameSession u) : s.SameSession u :=
  ⟨h₂.caches.trans h₁.caches, h₂.memo.trans h₁.memo⟩

theorem SameSession.grows (h : s.SameSession t) : s.Grows t :=
  ⟨h.caches ▸ .refl _, fun hv => h.memo ▸ hv⟩

theorem create_grows (s : SessionState σ) {kind : Kind} (key : kind.Key)
    (build : Handle kind → kind.Wrapper) : s.Grows (s.create kind key build).2 := by
  have hcache := (s.caches.get kind).getOrCreate_grows key fun slot => build ⟨slot⟩
  exact ⟨Caches.grows_set hcache, id⟩

theorem fill_grows (s : SessionState σ) (cell : Cell) (v : cell.Value) :
    s.Grows (s.fill cell v).2 := by
  rw [fill]
  split
  · exact .refl s
  · exact ⟨.refl _, Memo.grows_insert (by assumption) v⟩

theorem fill_caches (s : SessionState σ) (cell : Cell) (v : cell.Value) :
    (s.fill cell v).2.caches = s.caches := by
  rw [fill]
  split <;> rfl

theorem fill_oracle (s : SessionState σ) (cell : Cell) (v : cell.Value) :
    (s.fill cell v).2.oracle = s.oracle := by
  rw [fill]
  split <;> rfl

/-- What holds of every kept value and of the new one holds of every value. -/
theorem fill_get? {cell : Cell} {v : cell.Value} {P : (cell : Cell) → cell.Value → Prop}
    (hold : ∀ {cell v}, s.memo.get? cell = some v → P cell v) (hnew : P cell v) {other : Cell}
    {u : other.Value} (h : (s.fill cell v).2.memo.get? other = some u) : P other u := by
  rw [fill] at h
  split at h
  · exact hold h
  · by_cases hcell : other = cell
    · subst hcell
      rw [Std.DTreeMap.get?_insert_self] at h
      cases h
      exact hnew
    · rw [Memo.get?_insert_of_ne hcell] at h
      exact hold h

theorem Grows.get (h : s.Grows t) {kind : Kind} {slot : Nat} {w : kind.Wrapper}
    (hw : (s.caches.get kind).get slot = some w) : (t.caches.get kind).get slot = some w :=
  (h.caches kind).get hw

end SessionState

end SymbolGraph
