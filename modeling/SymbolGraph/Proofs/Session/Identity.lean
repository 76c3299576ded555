import SymbolGraph.Oracle.Disturbed
import SymbolGraph.Oracle.Table
import SymbolGraph.Proofs.Session.Run

/-!
# Identity

One wrapper for each key, in every state that a session gets into, whatever the front end
answers. A handle is issued once and means the same wrapper from then on.
-/

namespace SymbolGraph

variable {σ : Type} {session : Session σ} {s t : SessionState σ}

/-! ## Well-formed caches -/

/-- In every cache, keys and slots are matched one to one, and the wrapper in a slot carries the number
of the slot as its handle. -/
def Caches.WellFormed (caches : Caches) : Prop :=
  ∀ kind, (caches.get kind).WellFormed fun w => (kind.idOf w).index

namespace Caches.WellFormed

theorem empty : WellFormed {} := by
  intro kind
  have hempty : (({} : Caches).get kind) = {} := by
    rcases kind with (_ | _) | _ <;> rfl
  rw [hempty]
  exact IdentityCache.WellFormed.empty

/-- Only the cache of the kind of the new wrapper changes. -/
theorem create {caches : Caches} (wf : caches.WellFormed) {kind : Kind} (key : kind.Key)
    {build : Handle kind → kind.Wrapper} (hbuild : ∀ h, kind.idOf (build h) = h) :
    (caches.set kind ((caches.get kind).getOrCreate key fun slot => build ⟨slot⟩).2).WellFormed := by
  intro other
  by_cases hkind : other = kind
  · subst hkind
    rw [Caches.get_set_self]
    apply (wf other).getOrCreate key
    rw [hbuild]
  · rw [Caches.get_set_of_ne _ _ hkind]
    exact wf other

/-- A wrapper carries the handle that it was issued with. -/
theorem idOf_eq {caches : Caches} (wf : caches.WellFormed) {kind : Kind} {handle : Handle kind}
    {w : kind.Wrapper} (hw : (caches.get kind).get handle.index = some w) : kind.idOf w = handle :=
  congrArg Handle.mk ((wf kind).numbered hw)

end Caches.WellFormed

theorem Step.wellFormed {tier : Nat} (h : Step tier s t) (wf : s.caches.WellFormed) :
    t.caches.WellFormed := by
  cases h with
  | quiet hsame =>
    rw [hsame.caches]
    exact wf
  | create key hbuild => exact wf.create key hbuild
  | fill v _ =>
    rw [SessionState.fill_caches]
    exact wf

theorem Steps.wellFormed {tier : Nat} (h : Steps tier s t) (wf : s.caches.WellFormed) :
    t.caches.WellFormed := by
  induction h with
  | refl => exact wf
  | tail _ hstep ih => exact hstep.wellFormed ih

theorem Reaches.wellFormed (h : Reaches session s t) (wf : s.caches.WellFormed) :
    t.caches.WellFormed :=
  h.steps.wellFormed wf

/-! ## Requests for wrappers -/

/-- A request hands back the wrapper of a kind under a key. It is a request to wrap something of that
kind, or a request for a declaration of any sort. -/
inductive Obtains (session : Session σ) (s : SessionState σ) :
    (kind : Kind) → kind.Key → kind.Wrapper → SessionState σ → Prop
  | wrap {kind : Kind} {t : SessionState σ} {found : kind.Wrapper} (w : Wrapping kind) :
    w.query session s = .ok found t → Obtains session s kind w.key found t
  | classLike {key : SymbolKey} {t : SessionState σ} {found : ClassNode} :
    Query.declaration key session s = .ok (.classLike found) t →
    Obtains session s (.node .classLike) key found t
  | function {key : SymbolKey} {t : SessionState σ} {found : FunctionNode} :
    Query.declaration key session s = .ok (.function found) t →
    Obtains session s (.node .function) key found t
  | property {key : SymbolKey} {t : SessionState σ} {found : PropertyNode} :
    Query.declaration key session s = .ok (.property found) t →
    Obtains session s (.node .property) key found t
  | typeParameter {key : SymbolKey} {t : SessionState σ} {found : TypeParameterNode} :
    Query.declaration key session s = .ok (.typeParameter found) t →
    Obtains session s (.node .typeParameter) key found t

theorem Wraps.lookup {kind : Kind} {key : kind.Key} {q : Query σ kind.Wrapper}
    (h : Wraps kind key q) {w : kind.Wrapper} (hok : q session s = .ok w t) :
    (t.caches.get kind).lookup key = some w := by
  obtain ⟨make, _, rfl⟩ := h
  exact Query.lookup_of_wrap hok

theorem Wraps.of_lookup {kind : Kind} {key : kind.Key} {q : Query σ kind.Wrapper}
    (h : Wraps kind key q) (session : Session σ) (s : SessionState σ) {w : kind.Wrapper}
    (hw : (s.caches.get kind).lookup key = some w) : q session s = .ok w s := by
  obtain ⟨make, _, rfl⟩ := h
  exact Query.wrap_of_lookup hw make

/-- The declaration is the wrapper of its sort under a key. -/
def Declaration.FoundUnder (caches : Caches) (key : SymbolKey) : Declaration → Prop
  | classLike w => (caches.get (.node .classLike)).lookup key = some w
  | function w => (caches.get (.node .function)).lookup key = some w
  | property w => (caches.get (.node .property)).lookup key = some w
  | typeParameter w => (caches.get (.node .typeParameter)).lookup key = some w

/-- The front end says of what sort a symbol is; the symbol is then wrapped as such. -/
theorem Query.declaration_found {key : SymbolKey} {d : Declaration}
    (h : Query.declaration key session s = .ok d t) : d.FoundUnder t.caches key := by
  obtain ⟨symbol, s', _, h⟩ := Action.bind_eq_ok h
  cases hdetails : symbol.details <;> rw [hdetails] at h
  case classLike details =>
    obtain ⟨w, _, hw, h⟩ := Action.bind_eq_ok h
    cases h
    exact (Query.classLike_wraps key).lookup hw
  case function details =>
    obtain ⟨w, _, hw, h⟩ := Action.bind_eq_ok h
    cases h
    exact (Query.function_wraps key).lookup hw
  case property details =>
    obtain ⟨w, _, hw, h⟩ := Action.bind_eq_ok h
    cases h
    exact (Query.property_wraps key).lookup hw
  case typeParameter details =>
    obtain ⟨w, _, hw, h⟩ := Action.bind_eq_ok h
    cases h
    exact (Query.typeParameter_wraps key).lookup hw
  all_goals cases h

/-- A declaration is found again if the front end says again of what sort its symbol is. -/
theorem Query.declaration_of_found {key : SymbolKey} {d : Declaration}
    (hd : d.FoundUnder s.caches key) {symbol : SymbolRecord} {oracle : σ}
    (hsymbol : session.oracle.symbol key s.oracle = (.ok symbol, oracle))
    (hsort : symbol.details.describe = d.node.kind.name) :
    Query.declaration key session s = .ok d { s with oracle } := by
  have hrequest : Query.request (·.symbol key) session s = .ok symbol { s with oracle } := by
    rw [Query.request_apply, hsymbol]
  rw [Query.declaration, Action.bind_of_ok hrequest]
  cases hdetails : symbol.details <;> rw [hdetails] at hsort <;> cases d <;>
    simp only [SymbolDetails.describe, Declaration.node, Handle.node, NodeKind.name] at hsort
  case classLike.classLike w =>
    have hw : Query.classLike key session { s with oracle } = .ok w { s with oracle } :=
      (Query.classLike_wraps key).of_lookup session _ hd
    exact Action.bind_of_ok hw _
  case function.function w =>
    have hw : Query.function key session { s with oracle } = .ok w { s with oracle } :=
      (Query.function_wraps key).of_lookup session _ hd
    exact Action.bind_of_ok hw _
  case property.property w =>
    have hw : Query.property key session { s with oracle } = .ok w { s with oracle } :=
      (Query.property_wraps key).of_lookup session _ hd
    exact Action.bind_of_ok hw _
  case typeParameter.typeParameter w =>
    have hw : Query.typeParameter key session { s with oracle } = .ok w { s with oracle } :=
      (Query.typeParameter_wraps key).of_lookup session _ hd
    exact Action.bind_of_ok hw _
  all_goals simp at hsort

theorem Declaration.FoundUnder.grows {d : Declaration} {key : SymbolKey} {a b : Caches}
    (h : d.FoundUnder a key) (hgrows : a.Grows b) : d.FoundUnder b key := by
  cases d <;> exact (hgrows _).lookup h

/-- The wrapper that is handed back is found under its key. -/
theorem Obtains.lookup {kind : Kind} {key : kind.Key} {w : kind.Wrapper}
    (h : Obtains session s kind key w t) : (t.caches.get kind).lookup key = some w := by
  cases h with
  | wrap w hok => exact w.query_wraps.lookup hok
  | classLike hok => exact Query.declaration_found hok
  | function hok => exact Query.declaration_found hok
  | property hok => exact Query.declaration_found hok
  | typeParameter hok => exact Query.declaration_found hok

theorem Obtains.reaches {kind : Kind} {key : kind.Key} {w : kind.Wrapper}
    (h : Obtains session s kind key w t) : Reaches session s t := by
  have hdeclaration {key : SymbolKey} {d : Declaration}
      (hok : Query.declaration key session s = .ok d t) : Reaches session s t :=
    Action.after_of_ok hok ▸ .operate (.declaration key) .stay
  cases h with
  | wrap w hok => exact Action.after_of_ok hok ▸ .operate (.wrap w) .stay
  | classLike hok => exact hdeclaration hok
  | function hok => exact hdeclaration hok
  | property hok => exact hdeclaration hok
  | typeParameter hok => exact hdeclaration hok

/-! ## One wrapper for each key -/

/-- In every state of a run the caches are well formed, and exactly the handles below the size of their
cache are issued. Slots are only ever appended. Two requests for wrappers of one kind hand back the
same handle exactly if their keys are equal. A key that was wrapped once is wrapped again without
the front end, except that a request for a declaration of any sort asks of what sort the symbol is. -/
theorem reaches_identity {session : Session σ} {oracle : σ} {s : SessionState σ}
    (hs : Reaches session (.start oracle) s) :
    s.caches.WellFormed ∧
    (∀ {kind} (h : Handle kind),
      (∃ w, Query.resolve h session s = .ok w s) ↔ h.index < (s.caches.get kind).size) ∧
    (∀ {t}, Reaches session s t → ∀ kind,
      (s.caches.get kind).slots.toList <+: (t.caches.get kind).slots.toList) ∧
    (∀ {kind key w s'}, Obtains session s kind key w s' → ∀ {t}, Reaches session s' t →
      (∀ {other v t'}, Obtains session t kind other v t' →
        (kind.idOf w = kind.idOf v ↔ key = other)) ∧
      (∀ (again : Wrapping kind) (later : Session σ), again.key = key →
        again.query later t = .ok w t)) ∧
    (∀ {key d s'}, Query.declaration key session s = .ok d s' → ∀ {t}, Reaches session s' t →
      ∀ (later : Session σ) {symbol oracle'},
        later.oracle.symbol key t.oracle = (.ok symbol, oracle') →
        symbol.details.describe = d.node.kind.name →
        Query.declaration key later t = .ok d { t with oracle := oracle' }) := by
  have wf : s.caches.WellFormed := hs.wellFormed .empty
  refine ⟨wf, ?_, ?_, ?_, ?_⟩
  · intro kind h
    rw [← IdentityCache.get_isSome_iff]
    constructor
    · rintro ⟨w, hw⟩
      exact ⟨w, (Query.resolve_eq_ok hw).1⟩
    · rintro ⟨w, hw⟩
      exact ⟨w, Query.resolve_of_get session hw⟩
  · intro t ht kind
    exact (ht.grows.caches kind).slots
  · intro kind key w s' hobtains t ht
    have hw : (t.caches.get kind).lookup key = some w :=
      (ht.grows.caches kind).lookup hobtains.lookup
    constructor
    · intro other v t' hlater
      have hw' : (t'.caches.get kind).lookup key = some w :=
        (hlater.reaches.grows.caches kind).lookup hw
      have hv : (t'.caches.get kind).lookup other = some v := hlater.lookup
      have wf' : t'.caches.WellFormed :=
        (hobtains.reaches.trans (ht.trans hlater.reaches)).wellFormed wf
      constructor
      · intro hid
        exact (wf' kind).lookup_injective hw' hv (congrArg Handle.index hid)
      · rintro rfl
        rw [hw'] at hv
        cases hv
        rfl
    -- The front end may be any one now: the key alone leads to the wrapper.
    · rintro again later rfl
      exact again.query_wraps.of_lookup later t hw
  · intro key d s' hd t ht later symbol oracle' hsymbol hsort
    have hfound := (Query.declaration_found hd).grows ht.grows.caches
    exact Query.declaration_of_found hfound hsymbol hsort

/-- A table that knows one class and nothing else. -/
def SymbolTable.soleClass : SymbolTable where
  symbols := #[{ name := some "A", details := .classLike {} }]

theorem reaches_identity_soleClass :
    let session : Session ReturnTypes := { oracle := SymbolTable.soleClass.oracle }
    let s := (Query.classLike ⟨0⟩ : Query ReturnTypes _).after session (.start {})
    s.caches.WellFormed ∧ (s.caches.get (.node .classLike)).size = 1 ∧
      ∃ w, Query.resolve (⟨0⟩ : ClassId) session s = .ok w s := by
  intro session s
  have hs : Reaches session (.start {}) s := .operate (.wrap (.classLike ⟨0⟩)) .stay
  have hidentity := reaches_identity hs
  exact ⟨hidentity.1, rfl, (hidentity.2.1 ⟨0⟩).mpr Nat.zero_lt_one⟩

/-- A declaration that was wrapped is not wrapped again if the front end does not answer any more. -/
theorem declaration_asks_again :
    let session : Session (Disturbed ReturnTypes) :=
      { oracle := SymbolTable.soleClass.oracle.disturbed }
    let disturbed : Disturbed ReturnTypes :=
      { inner := {}, faults := [(.symbol ⟨0⟩, { message := "injected" })] }
    ∃ d s, Query.declaration ⟨0⟩ session (.start { inner := {} }) = .ok d s ∧
      Reaches session s { s with oracle := disturbed } ∧
      Query.declaration ⟨0⟩ session { s with oracle := disturbed } =
        .error (.oracle (.other "injected")) { s with oracle := disturbed } := by
  intro session disturbed
  exact ⟨_, _, rfl, .disturb disturbed .stay, rfl⟩

end SymbolGraph
