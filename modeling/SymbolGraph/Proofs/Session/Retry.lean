import SymbolGraph.Proofs.Oracle.Struck
import SymbolGraph.Proofs.Session.Memo

/-!
# Trying again

An operation that failed because the front end refused a question has done the first part of
what it would have done otherwise. Asked again without refusals, it does the rest: the
outcome and the state are those that it would have had at once.
-/

namespace SymbolGraph

variable {α β : Type} {table : SymbolTable} {config : Config}

/-- A session over a table, some of whose answers may be refused. -/
def SymbolTable.struckSession (table : SymbolTable) (config : Config) :
    Session (Struck ReturnTypes) :=
  { oracle := table.oracle.struck, config }

/-! ## Settling -/

/-- The return types after that of a function was settled, if it has to be. -/
def FunctionNode.settled (f : FunctionNode) (config : Config) (types : ReturnTypes) : ReturnTypes :=
  if f.needsSettling config then types.settle f.key else types

theorem FunctionNode.settled_settled (f : FunctionNode) (config : Config) (types : ReturnTypes) :
    f.settled config (f.settled config types) = f.settled config types := by
  simp only [settled]
  split
  · exact types.settle_settle f.key
  · rfl

/-- A state that a query reading the return type of one function may lead to. -/
structure Extends (reads : FunctionNode → Prop) (config : Config)
    (s t : SessionState (Struck ReturnTypes)) : Prop where
  grows : s.Grows t
  types : t.oracle.inner = s.oracle.inner ∨
    ∃ f, reads f ∧ t.oracle.inner = f.settled config s.oracle.inner

namespace Extends

variable {reads : FunctionNode → Prop} {s t u : SessionState (Struck ReturnTypes)}

theorem refl (s : SessionState (Struck ReturnTypes)) : Extends reads config s s :=
  ⟨.refl s, .inl rfl⟩

theorem trans (hreads : ∀ f g, reads f → reads g → f = g) (h₁ : Extends reads config s t)
    (h₂ : Extends reads config t u) : Extends reads config s u := by
  refine ⟨h₁.grows.trans h₂.grows, ?_⟩
  rcases h₁.types with ht | ⟨f, hf, ht⟩ <;> rcases h₂.types with hu | ⟨g, hg, hu⟩
  · exact .inl (hu.trans ht)
  · exact .inr ⟨g, hg, by rw [hu, ht]⟩
  · exact .inr ⟨f, hf, by rw [hu, ht]⟩
  · refine .inr ⟨f, hf, ?_⟩
    rw [hu, ht, hreads g f hg hf, f.settled_settled]

/-- What was settled stays settled. -/
theorem settled_eq (hreads : ∀ f g, reads f → reads g → f = g) (h : Extends reads config s t)
    {f : FunctionNode} (hf : reads f) (hs : f.settled config s.oracle.inner = s.oracle.inner) :
    t.oracle.inner = s.oracle.inner := by
  rcases h.types with ht | ⟨g, hg, ht⟩
  · exact ht
  -- The only return type that may have changed was settled already.
  · rw [ht, hreads g f hg hf, hs]

end Extends

/-! ## Questions -/

theorem Inquiry.put_struckSession (i : Inquiry α) :
    i.put (table.struckSession config).oracle = Struck.refuse (i.put table.oracle) :=
  i.put_struck table.oracle

theorem Inquiry.request_calm (i : Inquiry α) (s : SessionState (Struck ReturnTypes)) :
    ((Query.request i.put).after (table.struckSession config) s).calm = s.calm := by
  obtain ⟨answer, hanswer⟩ := i.put_table table
  rcases Struck.request_cases i.put i.put_struckSession s with ⟨e, plan, hrun⟩ | ⟨plan, hrun⟩
  · rw [Action.after_of_error hrun]
    rfl
  · rw [hanswer] at hrun
    cases answer with
    | ok a => rw [Action.after_of_ok hrun]; rfl
    | error e => rw [Action.after_of_error hrun]; rfl

/-- A question that was answered is answered in the same way whenever it is not refused. -/
theorem Inquiry.request_later (i : Inquiry α) {s t : SessionState (Struck ReturnTypes)} {a : α}
    (hok : Query.request i.put (table.struckSession config) s = .ok a t)
    (v : SessionState (Struck ReturnTypes)) :
    Query.request i.put (table.struckSession config) v.calm = .ok a v.calm := by
  obtain ⟨answer, hanswer⟩ := i.put_table table
  rw [Struck.request_calm i.put i.put_struckSession, hanswer]
  rcases Struck.request_cases i.put i.put_struckSession s with ⟨e, plan, hrun⟩ | ⟨plan, hrun⟩
  · rw [hrun] at hok
    cases hok
  · rw [hrun, hanswer] at hok
    cases answer with
    | ok a => cases hok; rfl
    | error e => cases hok

theorem Glance.ask_eq (g : Glance α) (table : SymbolTable) (config : Config) :
    ∃ answer, ∀ s : SessionState (Struck ReturnTypes),
      Query.ask g.put (table.struckSession config) s = .ok answer s := by
  obtain ⟨answer, hanswer⟩ := g.put_table table
  have hput : g.put (table.struckSession config).oracle = Struck.pass (g.put table.oracle) :=
    g.put_struck table.oracle
  refine ⟨answer, fun s => ?_⟩
  rw [Query.ask_apply, hput]
  simp only [Struck.pass, hanswer]

/-! ## Consultations -/

namespace Consult

variable {q : Query (Struck ReturnTypes) α}

/-- A consultation may use up refusals, and changes nothing else. -/
theorem after_calm (h : Consult q) (table : SymbolTable) (config : Config)
    (s : SessionState (Struck ReturnTypes)) :
    (q.after (table.struckSession config) s).calm = s.calm := by
  induction h generalizing s with
  | pure a => rfl
  | throw e => rfl
  | bind _ _ ihx ihf =>
    have hx := ihx s
    apply Action.after_bind (P := fun t : SessionState (Struck ReturnTypes) => t.calm = s.calm) hx
    intro a t hrun
    rw [Action.after_of_ok hrun] at hx
    exact (ihf a t).trans hx
  | settings => rfl
  | inquire i => exact i.request_calm s
  | glance g =>
    obtain ⟨answer, hask⟩ := g.ask_eq table config
    rw [Action.after_of_ok (hask s)]
  | resolve handle => rw [Query.resolve_after]
  | blame key e =>
    change SessionState.calm { s with oracle := (Struck.refuse (table.oracle.symbol key) s.oracle).2 } = _
    rcases Struck.refuse_cases (table.oracle.symbol key) s.oracle with ⟨_, _, hrun⟩ | hrun
    · rw [hrun]
      rfl
    · rw [hrun]
      rfl

/-- A consultation that succeeded comes out in the same way in every later state. -/
theorem later (h : Consult q) {s t v : SessionState (Struck ReturnTypes)} {a : α}
    (hok : q (table.struckSession config) s = .ok a t) (hgrows : s.Grows v) :
    q (table.struckSession config) v.calm = .ok a v.calm := by
  induction h generalizing s t with
  | pure b =>
    cases hok
    rfl
  | throw e => cases hok
  | bind hx _ ihx ihf =>
    obtain ⟨b, s', hfirst, hok⟩ := Action.bind_eq_ok hok
    have hsame := hx.sameSession (table.struckSession config) s
    rw [Action.after_of_ok hfirst] at hsame
    -- The first part has left the session alone, so the second one finds all that it found before.
    have hgrows' : s'.Grows v := by
      refine ⟨?_, ?_⟩
      · rw [hsame.caches]
        exact hgrows.caches
      · rw [hsame.memo]
        exact hgrows.memo
    rw [Action.bind_of_ok (ihx hfirst hgrows)]
    exact ihf b hok hgrows'
  | settings =>
    cases hok
    rfl
  | inquire i => exact i.request_later hok v
  | glance g =>
    obtain ⟨answer, hask⟩ := g.ask_eq table config
    rw [hask] at hok ⊢
    cases hok
    rfl
  | resolve handle =>
    obtain ⟨hw, _⟩ := Query.resolve_eq_ok hok
    exact Query.resolve_of_get _ (hgrows.get hw)
  | blame key e =>
    obtain ⟨answer, s', _, hok⟩ := Action.bind_eq_ok hok
    cases hok

end Consult

/-! ## Return types -/

namespace FunctionNode

variable (f : FunctionNode)

theorem settle_struckSession (table : SymbolTable) (config : Config) (owner : SymbolKey) :
    (table.struckSession config).oracle.resolveInteropReturnType f.key owner =
      Struck.refuse (table.resolveInteropReturnType f.key owner) := rfl

/-- A return type that cannot be settled is left as it is. -/
theorem prepare_error {s t : SessionState (Struck ReturnTypes)} {e : GraphError}
    (herr : f.prepare (table.struckSession config) s = .error e t) : t.calm = s.calm := by
  rw [prepare_apply] at herr
  split at herr
  · cases hc : f.symbol.container with
    | none =>
      rw [settle_of_top hc] at herr
      cases herr
      rfl
    | some owner =>
      rw [settle_of_member hc] at herr
      rcases Struck.request_cases (·.resolveInteropReturnType f.key owner)
        (f.settle_struckSession table config owner) s with ⟨_, _, hrun⟩ | ⟨_, hrun⟩
      · cases hrun.symm.trans herr
        rfl
      · rcases table.resolveInteropReturnType_cases f.key owner with ⟨e', hrefused⟩ | hsettled
        · rw [hrefused] at hrun
          cases hrun.symm.trans herr
          rfl
        · rw [hsettled] at hrun
          cases hrun.symm.trans herr
  · cases herr

/-- A return type that was settled once can be settled whenever that is not refused. -/
theorem prepare_ok {s t : SessionState (Struck ReturnTypes)}
    (hok : f.prepare (table.struckSession config) s = .ok () t) :
    t.calm = { s with oracle := { inner := f.settled config s.oracle.inner } } ∧
    ∀ v : SessionState (Struck ReturnTypes), f.prepare (table.struckSession config) v.calm =
      .ok () { v with oracle := { inner := f.settled config v.oracle.inner } } := by
  have hconfig : (table.struckSession config).config = config := rfl
  simp only [prepare_apply, settled, hconfig] at hok ⊢
  cases hneeds : f.needsSettling config with
  | false =>
    simp only [hneeds, Bool.false_eq_true, if_false] at hok ⊢
    cases hok
    exact ⟨rfl, fun v => rfl⟩
  | true =>
    simp only [hneeds, if_true] at hok ⊢
    cases hc : f.symbol.container with
    | none =>
      rw [settle_of_top hc] at hok
      cases hok
    | some owner =>
      rw [settle_of_member hc] at hok ⊢
      rcases Struck.request_cases (·.resolveInteropReturnType f.key owner)
        (f.settle_struckSession table config owner) s with ⟨_, _, hrun⟩ | ⟨_, hrun⟩
      · cases hrun.symm.trans hok
      · rcases table.resolveInteropReturnType_cases f.key owner with ⟨e, hrefused⟩ | hsettled
        · rw [hrefused] at hrun
          cases hrun.symm.trans hok
        · rw [hsettled] at hrun
          cases hrun.symm.trans hok
          refine ⟨rfl, fun v => ?_⟩
          have hcalm := Struck.request_calm (·.resolveInteropReturnType f.key owner)
            (f.settle_struckSession table config owner) v
          rw [hsettled] at hcalm
          exact hcalm

/-- Once it is settled, settling a return type again changes nothing. -/
theorem prepare_later {reads : FunctionNode → Prop} (hreads : ∀ f g, reads f → reads g → f = g)
    (hf : reads f) {s t v : SessionState (Struck ReturnTypes)}
    (hok : f.prepare (table.struckSession config) s = .ok () t) (hv : Extends reads config t v) :
    f.prepare (table.struckSession config) v.calm = .ok () v.calm := by
  obtain ⟨ht, hprepare⟩ := f.prepare_ok hok
  have hinner : t.oracle.inner = f.settled config s.oracle.inner :=
    congrArg (fun u => u.oracle.inner) ht
  have hsettled : f.settled config t.oracle.inner = t.oracle.inner := by
    rw [hinner, f.settled_settled]
  have hv' : v.oracle.inner = t.oracle.inner := hv.settled_eq hreads hf hsettled
  rw [hprepare, hv', hsettled, ← hv']
  rfl

/-- The return type of a function that does not change any more. -/
theorem request_returnType_cases (s : SessionState (Struck ReturnTypes)) :
    (∃ e plan, Query.request (·.returnType f.key) (table.struckSession config) s =
      .error e { s with oracle := { s.oracle with plan } }) ∨
    ∃ type plan, s.oracle.inner.known[f.key]? = some type ∧
      Query.request (·.returnType f.key) (table.struckSession config) s =
        .ok type { s with oracle := { s.oracle with plan } } := by
  have hput : (table.struckSession config).oracle.returnType f.key =
    Struck.refuse (table.oracle.returnType f.key) := rfl
  rcases Struck.request_cases (·.returnType f.key) hput s with ⟨e, plan, hrun⟩ | ⟨plan, hrun⟩
  · exact .inl ⟨.oracle e, plan, hrun⟩
  · cases hknown : s.oracle.inner.known[f.key]? with
    | none =>
      have hanswer : table.oracle.returnType f.key s.oracle.inner =
          (.error (.unknownSymbol f.key), s.oracle.inner) := by
        simp [SymbolTable.oracle, SymbolTable.answer, hknown]
      rw [hanswer] at hrun
      exact .inl ⟨_, plan, hrun⟩
    | some type =>
      have hanswer : table.oracle.returnType f.key s.oracle.inner =
          (.ok type, s.oracle.inner) := by
        simp [SymbolTable.oracle, SymbolTable.answer, hknown]
      rw [hanswer] at hrun
      exact .inr ⟨type, plan, rfl, hrun⟩

theorem request_returnType_calm {s : SessionState (Struck ReturnTypes)} {type : TypeKey}
    (h : s.oracle.inner.known[f.key]? = some type) :
    Query.request (·.returnType f.key) (table.struckSession config) s.calm = .ok type s.calm := by
  have hput : (table.struckSession config).oracle.returnType f.key =
    Struck.refuse (table.oracle.returnType f.key) := rfl
  have hanswer : table.oracle.returnType f.key s.oracle.inner = (.ok type, s.oracle.inner) := by
    simp [SymbolTable.oracle, SymbolTable.answer, h]
  rw [Struck.request_calm (·.returnType f.key) hput, hanswer]
  rfl

end FunctionNode

/-! ## Regular queries -/

namespace Regular

variable {reads : FunctionNode → Prop} {tier : Nat} {q : Query (Struck ReturnTypes) α}

/-- Apart from the session, a regular query changes at most the one return type that it reads. -/
theorem types_after (h : Regular reads tier q) (hreads : ∀ f g, reads f → reads g → f = g)
    (table : SymbolTable) (config : Config) (s : SessionState (Struck ReturnTypes)) :
    Extends reads config s (q.after (table.struckSession config) s) := by
  have hgrows {α : Type} {q : Query (Struck ReturnTypes) α} (h : Regular reads tier q)
      (s : SessionState (Struck ReturnTypes)) :
      s.Grows (q.after (table.struckSession config) s) :=
    (h.steps _ s).grows
  induction h generalizing s with
  | consult h =>
    have hcalm := congrArg (·.oracle.inner) (h.after_calm table config s)
    exact ⟨hgrows (.consult h) s, .inl hcalm⟩
  | bind _ _ ihx ihf =>
    have hx := ihx s
    apply Action.after_bind (P := Extends reads config s) hx
    intro a t hrun
    rw [Action.after_of_ok hrun] at hx
    exact hx.trans hreads (ihf a t)
  | wrap hmake =>
    -- Neither making a wrapper nor creating it has to do with return types.
    have hcalm := congrArg (·.oracle.inner) (hmake.consult.after_calm table config s)
    refine ⟨hgrows (.wrap hmake) s, .inl ?_⟩
    apply Query.wrap_after
      (P := fun t : SessionState (Struck ReturnTypes) => t.oracle.inner = s.oracle.inner) rfl hcalm
    intro build t hrun
    rw [Action.after_of_ok hrun] at hcalm
    exact hcalm
  | memoize htier hcell hcompute hempty ih =>
    have htypes := (ih s).types
    refine ⟨hgrows (.memoize htier hcell hcompute hempty) s, ?_⟩
    apply Query.memoize_after
      (P := fun t : SessionState (Struck ReturnTypes) => t.oracle.inner = s.oracle.inner ∨
        ∃ f, reads f ∧ t.oracle.inner = f.settled config s.oracle.inner) (.inl rfl) htypes
    intro v t hrun
    rw [Action.after_of_ok hrun] at htypes
    simp only [SessionState.fill]
    split <;> exact htypes
  | @prepare f hf =>
    refine ⟨hgrows (.prepare hf) s, ?_⟩
    cases hrun : f.prepare (table.struckSession config) s with
    | ok u s' =>
      rw [Action.after_of_ok hrun]
      exact .inr ⟨f, hf, congrArg (·.oracle.inner) (f.prepare_ok hrun).1⟩
    | error e s' =>
      rw [Action.after_of_error hrun]
      exact .inl (congrArg (·.oracle.inner) (f.prepare_error hrun))
  | @prepared f hf =>
    refine ⟨hgrows (.prepared hf) s, ?_⟩
    cases hrun : f.prepare (table.struckSession config) s with
    | ok u s' =>
      rw [Action.after, Action.bind_of_ok hrun]
      have hprepare := congrArg (·.oracle.inner) (f.prepare_ok hrun).1
      rcases f.request_returnType_cases s' with ⟨e, plan, hask⟩ | ⟨type, plan, _, hask⟩
      · rw [hask]
        exact .inr ⟨f, hf, hprepare⟩
      · rw [hask]
        exact .inr ⟨f, hf, hprepare⟩
    | error e s' =>
      rw [Action.after_of_error (Action.bind_of_error hrun _)]
      exact .inl (congrArg (·.oracle.inner) (f.prepare_error hrun))

/-- A regular query that succeeded, refusals or not, comes out in the same way in every later state,
and does nothing there any more. -/
theorem later (h : Regular reads tier q) (hreads : ∀ f g, reads f → reads g → f = g)
    {s t v : SessionState (Struck ReturnTypes)} {a : α}
    (hok : q (table.struckSession config) s = .ok a t) (hv : Extends reads config t v) :
    q (table.struckSession config) v.calm = .ok a v.calm := by
  induction h generalizing s t with
  | @consult _ q h =>
    have hsame := h.sameSession (table.struckSession config) s
    rw [Action.after_of_ok hok] at hsame
    exact h.later hok (hsame.grows.trans hv.grows)
  | bind _ hf ihx ihf =>
    obtain ⟨b, s', hfirst, hok⟩ := Action.bind_eq_ok hok
    have hnext : Extends reads config s' t := by
      have hafter := (hf b).types_after hreads table config s'
      rw [Action.after_of_ok hok] at hafter
      exact hafter
    rw [Action.bind_of_ok (ihx hfirst (hnext.trans hreads hv))]
    exact ihf b hok hv
  | wrap hmake =>
    have hw : (v.calm.caches.get _).lookup _ = some a :=
      (hv.grows.caches _).lookup (Query.lookup_of_wrap hok)
    exact Query.wrap_of_lookup hw _
  | memoize _ _ _ _ _ =>
    have hcell : v.calm.memo.get? _ = some a := hv.grows.memo (Query.get?_of_memoize hok)
    exact Query.memoize_of_get? hcell _
  | @prepare f hf => exact f.prepare_later hreads hf hok hv
  | @prepared f hf =>
    obtain ⟨_, s', hprepare, hask⟩ := Action.bind_eq_ok hok
    rcases f.request_returnType_cases s' with ⟨e, plan, hrun⟩ | ⟨type, plan, hknown, hrun⟩
    · cases hrun.symm.trans hask
    · cases hrun.symm.trans hask
      -- The second step left the return types alone, so the first one is settled for good.
      have hv' : Extends reads config s' v := ⟨⟨hv.grows.caches, hv.grows.memo⟩, hv.types⟩
      rw [Action.bind_of_ok (f.prepare_later hreads hf hprepare hv')]
      apply f.request_returnType_calm
      have hsettled : f.settled config s'.oracle.inner = s'.oracle.inner := by
        have hinner := congrArg (·.oracle.inner) (f.prepare_ok hprepare).1
        change s'.oracle.inner = _ at hinner
        rw [hinner, f.settled_settled]
      rw [hv'.settled_eq hreads hf hsettled]
      exact hknown

/-- A regular query that succeeds despite refusals to come succeeds without them as well. -/
theorem calm_of_ok (h : Regular reads tier q) {s t : SessionState (Struck ReturnTypes)} {a : α}
    (hok : q (table.struckSession config) s = .ok a t) :
    q (table.struckSession config) s.calm = .ok a t.calm := by
  induction h generalizing s t with
  | @consult _ q h =>
    have hcalm := h.after_calm table config s
    rw [Action.after_of_ok hok] at hcalm
    rw [hcalm]
    exact h.later hok (.refl s)
  | bind _ _ ihx ihf =>
    obtain ⟨b, s', hfirst, hok⟩ := Action.bind_eq_ok hok
    rw [Action.bind_of_ok (ihx hfirst)]
    exact ihf b hok
  | @wrap kind key make hmake =>
    rw [Query.wrap_apply] at hok ⊢
    rw [SessionState.calm_caches]
    cases hw : (s.caches.get kind).lookup key with
    | some w =>
      rw [hw] at hok
      cases hok
      rfl
    | none =>
      rw [hw] at hok
      cases hrun : make (table.struckSession config) s with
      | ok build s' =>
        have hcalm := hmake.consult.after_calm table config s
        rw [Action.after_of_ok hrun] at hcalm
        have hagain := hmake.consult.later hrun (.refl s)
        rw [hrun] at hok
        cases hok
        rw [hagain, ← hcalm]
        rfl
      | error e s' =>
        rw [hrun] at hok
        cases hok
  | @memoize cell compute _ _ _ _ ih =>
    rw [Query.memoize_apply] at hok ⊢
    rw [SessionState.calm_memo]
    cases hcell : s.memo.get? cell with
    | some v =>
      rw [hcell] at hok
      cases hok
      rfl
    | none =>
      rw [hcell] at hok
      cases hrun : compute (table.struckSession config) s with
      | ok v s' =>
        rw [hrun] at hok
        cases hok
        simp only [ih hrun, SessionState.calm_fill]
      | error e s' =>
        rw [hrun] at hok
        cases hok
  | @prepare f _ =>
    obtain ⟨ht, hprepare⟩ := f.prepare_ok hok
    rw [hprepare, ht]
  | @prepared f _ =>
    obtain ⟨_, s', hprepare, hask⟩ := Action.bind_eq_ok hok
    obtain ⟨hs', hagain⟩ := f.prepare_ok hprepare
    rw [Action.bind_of_ok (hagain s), ← hs']
    rcases f.request_returnType_cases s' with ⟨e, plan, hrun⟩ | ⟨type, plan, hknown, hrun⟩
    · cases hrun.symm.trans hask
    · cases hrun.symm.trans hask
      exact f.request_returnType_calm hknown

/-- A regular query that failed, run again without refusals, comes out as it would have at first. -/
theorem retry (h : Regular reads tier q) (hreads : ∀ f g, reads f → reads g → f = g)
    {s t : SessionState (Struck ReturnTypes)} {e : GraphError}
    (herr : q (table.struckSession config) s = .error e t) :
    q (table.struckSession config) t.calm = q (table.struckSession config) s.calm := by
  induction h generalizing s t with
  | @consult _ q h =>
    have hcalm := h.after_calm table config s
    rw [Action.after_of_error herr] at hcalm
    rw [hcalm]
  | @bind _ _ x f hx hf ihx ihf =>
    rcases Action.bind_eq_error herr with hfirst | ⟨a, s', hfirst, herr⟩
    · rw [Action.bind_apply, Action.bind_apply, ihx hfirst]
    · have hnext := (hf a).types_after hreads table config s'
      rw [Action.after_of_error herr] at hnext
      rw [Action.bind_of_ok (hx.later hreads hfirst hnext),
        Action.bind_of_ok (hx.calm_of_ok hfirst)]
      exact ihf a herr
  | @wrap kind key make hmake =>
    rw [Query.wrap_apply] at herr
    cases hw : (s.caches.get kind).lookup key with
    | some w =>
      rw [hw] at herr
      cases herr
    | none =>
      rw [hw] at herr
      cases hrun : make (table.struckSession config) s with
      | ok build s' =>
        rw [hrun] at herr
        cases herr
      | error e' s' =>
        rw [hrun] at herr
        cases herr
        have hcalm := hmake.consult.after_calm table config s
        rw [Action.after_of_error hrun] at hcalm
        rw [hcalm]
  | @memoize cell compute _ _ _ hempty ih =>
    obtain ⟨hcell, hcompute⟩ := Query.memoize_eq_error herr
    -- The computation failed, so the cell is still empty and is computed again.
    have hcell' : t.memo.get? cell = none := hempty _ s e t hcell hcompute
    rw [Query.memoize_apply, Query.memoize_apply, SessionState.calm_memo, SessionState.calm_memo,
      hcell, hcell', ih hcompute]
  | @prepare f _ => rw [f.prepare_error herr]
  | @prepared f hf =>
    rcases Action.bind_eq_error herr with hprepare | ⟨_, s', hprepare, hask⟩
    · rw [f.prepare_error hprepare]
    · have ht : t.calm = s'.calm := by
        rcases f.request_returnType_cases s' with ⟨_, plan, hrun⟩ | ⟨_, plan, _, hrun⟩
        · cases hrun.symm.trans hask
          rfl
        · cases hrun.symm.trans hask
      obtain ⟨hs', hagain⟩ := f.prepare_ok hprepare
      rw [ht, Action.bind_of_ok (f.prepare_later hreads hf hprepare (.refl s')),
        Action.bind_of_ok (hagain s), ← hs']

end Regular

/-! ## Operations -/

/-- A wrapper is at most one function. -/
theorem Kind.function?_injective {kind : Kind} (w : kind.Wrapper) :
    ∀ f g, kind.function? w = some f → kind.function? w = some g → f = g := by
  intro f g hf hg
  rw [hf] at hg
  exact Option.some.inj hg

/-- In any state of a session over a table whose answers may be refused: an operation that fails,
whatever it did before, can be run again when nothing is refused any more, and then ends just as it
would have without refusals in the first place, with the same answer and in the same state of the
session and the front end. -/
theorem operation_retry {α : Type} (table : SymbolTable) (config : Config) (op : Operation α)
    {s t : SessionState (Struck ReturnTypes)} {e : GraphError}
    (herr : op.query (table.struckSession config) s = .error e t) :
    op.query (table.struckSession config) t.calm = op.query (table.struckSession config) s.calm := by
  have hnone : ∀ f g : FunctionNode, False → False → f = g := fun _ _ h => h.elim
  cases op with
  | wrap w =>
    have hregular : Regular (fun _ => False) 2 (w.query : Query (Struck ReturnTypes) _) :=
      w.query_wraps.regular
    exact hregular.retry hnone herr
  | declaration key =>
    have hregular : Regular (fun _ => False) 2
        (Query.declaration key : Query (Struck ReturnTypes) _) := Query.declaration_regular key
    exact hregular.retry hnone herr
  | nodeDeclaration node =>
    have hregular : Regular (fun _ => False) 2
        (Query.nodeDeclaration node : Query (Struck ReturnTypes) _) :=
      .consult (Query.nodeDeclaration_consult node)
    exact hregular.retry hnone herr
  | @read kind _ h r =>
    cases hw : (s.caches.get kind).get h.index with
    | none =>
      rw [Operation.read_of_stale hw] at herr
      cases herr
      rfl
    | some w =>
      have hgrows : s.Grows t := by
        have hsteps := (Operation.read h r).query_steps (table.struckSession config) s
        rw [Action.after_of_error herr] at hsteps
        exact hsteps.grows
      have hs : (s.calm.caches.get kind).get h.index = some w := hw
      have ht : (t.calm.caches.get kind).get h.index = some w := hgrows.get hw
      rw [Operation.read_of_get hw] at herr
      rw [Operation.read_of_get hs, Operation.read_of_get ht]
      have hreads := Kind.function?_injective w
      rcases r.query_regular w (fun _ _ hg => hg) (table.struckSession config) with
        hobserves | ⟨q, hregular, hq⟩
      · obtain ⟨a, oracle, hok, _⟩ := hobserves (table.struckSession config) s
        cases hok.symm.trans herr
      · rw [hq] at herr ⊢
        exact hregular.retry hreads herr

/-- A table with a class and a platform method in it, whose return type waits to be settled. -/
def SymbolTable.deferringMethod : SymbolTable where
  symbols := #[
    { name := some "A", details := .classLike { members := [⟨1⟩] } },
    { name := some "f", details := .function { isInteropMethod := true },
      provenance := .interopLibrary, container := some ⟨0⟩ }]
  types := #[.ofClass "Raw", .ofClass "Settled"]
  returnTypes :=
    { known := ({} : Std.TreeMap SymbolKey TypeKey).insert ⟨1⟩ ⟨0⟩
      deferred := ({} : Std.TreeMap SymbolKey TypeKey).insert ⟨1⟩ ⟨1⟩ }

/-- The return type is settled, and then the front end refuses to tell it. -/
theorem operation_retry_deferringMethod :
    let table := SymbolTable.deferringMethod
    let session := table.struckSession {}
    let inner := table.returnTypes
    let s := (Query.function ⟨1⟩ : Query (Struck ReturnTypes) _).after session
      (.start { inner, plan := [none, none, some (.other "injected")] })
    let op := Operation.read ⟨0⟩ (.field .functionReturnType)
    ∃ t, op.query session s = .error (.oracle (.other "injected")) t ∧
      t.oracle.inner.known[(⟨1⟩ : SymbolKey)]? = some ⟨1⟩ ∧
      op.query session t.calm = op.query session s.calm := by
  intro table session inner s op
  have herr : op.query session s = .error (.oracle (.other "injected")) _ := rfl
  exact ⟨_, herr, rfl, operation_retry table {} op herr⟩

end SymbolGraph
