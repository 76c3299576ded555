import SymbolGraph.Proofs.Meaning.Answers
import SymbolGraph.Proofs.Session.Sustains
import SymbolGraph.Proofs.Tidy.Fact

/-!
# Queries that keep a session tidy

A query yields a fact if it keeps every tidy session tidy and its answers are as the fact says. One
rule for each way of putting queries together; what a query yields is then found out from its
definition, step by step. Nothing is said of when a query fails.
-/

namespace SymbolGraph

variable {α β γ : Type} {world : World} {table : SymbolTable} {caches later : Caches} {kind : Kind}

/-- In all tidy sessions whose caches extend these ones, the query keeps the session tidy and the fact
holds of its answer. -/
def Yields (world : World) (caches : Caches) (q : Query ReturnTypes α) (F : Fact α) : Prop :=
  ∀ s, Tidy world.table s → caches.Grows s.caches →
    Tidy world.table (q.after world.session s) ∧ s.caches.Grows (q.after world.session s).caches ∧
      ∀ {a t}, q world.session s = .ok a t → F.Holds t.caches a

/-! ## What the table answers -/

/-- The answer of the table to a question. -/
def Inquiry.Told (table : SymbolTable) : Inquiry α → α → Prop
  | .file key, record => table.files[key.index]? = some record
  | .symbol key, record => table.symbols[key.index]? = some record
  | .annotationUse key, record => table.annotations[key.index]? = some record
  | .type key, record => table.types[key.index]? = some record
  | .classType key, key' => table.classTypes[key]?.map ClassTypes.own = some key'
  | .starProjectedType key, key' => table.classTypes[key]?.map ClassTypes.star = some key'

theorem SymbolTable.answer_eq_ok {found : Option α} {missing : OracleError} {a : α}
    {types types' : ReturnTypes} (h : answer found missing types = (.ok a, types')) :
    found = some a := by
  cases found with
  | none => cases h
  | some b =>
    cases h
    rfl

theorem Inquiry.told {i : Inquiry α} {types types' : ReturnTypes} {a : α}
    (h : i.put table.oracle types = (.ok a, types')) : i.Told table a := by
  cases i <;> exact SymbolTable.answer_eq_ok h

theorem Inquiry.told_of_request {i : Inquiry α} {s t : SessionState ReturnTypes} {a : α}
    (h : Query.request i.put world.session s = .ok a t) : i.Told world.table a := by
  rw [Query.request_apply] at h
  split at h
  · cases h
    exact told (by assumption)
  · cases h

/-- What the table knows it tells. -/
theorem Inquiry.Told.request {i : Inquiry α} {a : α} (h : i.Told world.table a)
    (s : SessionState ReturnTypes) : Query.request i.put world.session s = .ok a s := by
  have hanswer : i.put world.session.oracle s.oracle = (.ok a, s.oracle) := by
    cases i <;> exact congrArg (fun found => SymbolTable.answer found _ s.oracle) h
  rw [Query.request_apply, hanswer]

namespace Yields

variable {F : Fact α} {G : Fact β} {q : Query ReturnTypes α}

/-! A query that yields something sustains the law that the session is tidy. -/

theorem sustains (h : Yields world caches q F) :
    Sustains world.session (Tidy world.table) caches q F := h

theorem grows (h : Yields world caches q F) (hgrows : caches.Grows later) :
    Yields world later q F :=
  h.sustains.grows hgrows

theorem of_genuine (h : ∀ {later}, caches.Grows later → later.Genuine world.table →
    Yields world later q F) : Yields world caches q F :=
  Sustains.of_law fun hs hgrows => h hgrows hs.genuine

theorem mono {F' : Fact α} (h : Yields world caches q F)
    (hF : ∀ {a later}, caches.Grows later → F.Holds later a → F'.Holds later a) :
    Yields world caches q F' :=
  h.sustains.mono hF

/-- What is known after an answer. -/
theorem of_ok {s t : SessionState ReturnTypes} {a : α} (h : Yields world s.caches q F)
    (hs : Tidy world.table s) (hok : q world.session s = .ok a t) :
    Tidy world.table t ∧ s.caches.Grows t.caches ∧ F.Holds t.caches a :=
  h.sustains.of_ok hs hok

theorem to_any (h : Yields world caches q F) : Yields world caches q .any :=
  h.sustains.to_any

/-! ## Sequences -/

theorem pure {a : α} (h : F.Holds caches a) : Yields world caches (pure a) F := Sustains.pure h

theorem throw (e : GraphError) : Yields world caches (throw e) F := Sustains.throw e

/-- What would come after a failure does not matter. -/
theorem throw_bind {e : GraphError} {f : α → Query ReturnTypes β} :
    Yields world caches (MonadExcept.throw e >>= f) G :=
  Sustains.throw_bind

theorem bind {x : Query ReturnTypes α} {f : α → Query ReturnTypes β} (hx : Yields world caches x F)
    (hf : ∀ {a later}, caches.Grows later → later.Genuine world.table → F.Holds later a →
      Yields world later (f a) G) :
    Yields world caches (x >>= f) G := by
  refine Sustains.bind hx.sustains fun hgrows hfact => ?_
  exact Sustains.of_law fun ht hlater => hf (hgrows.trans hlater) ht.genuine (F.grows hfact hlater)

/-- The last thing done to an answer. -/
theorem map {x : Query ReturnTypes α} {f : α → β} (hx : Yields world caches x F)
    (hf : ∀ {a later}, later.Genuine world.table → F.Holds later a → G.Holds later (f a)) :
    Yields world caches (x >>= fun a => Pure.pure (f a)) G :=
  hx.bind fun _ hgenuine hfact => .pure (hf hgenuine hfact)

theorem mapM {κ : Type} {v : View α β} {f : κ → Query ReturnTypes α} {g : κ → β}
    (h : ∀ key, Yields world caches (f key) (v.of (g key))) (keys : List κ) :
    Yields world caches (keys.mapM f) (v.list.of (keys.map g)) := by
  refine (Sustains.mapM h keys).mono fun _ hitems => ?_
  exact List.forall₂_map_right_iff.mpr hitems

/-! ## Queries that change nothing -/

theorem of_sameSession (h : ∀ s : SessionState ReturnTypes, s.SameSession (q.after world.session s)) :
    Yields world caches q .any :=
  Sustains.of_sameSession Tidy.of_sameSession h

theorem consult (h : Consult q) : Yields world caches q .any :=
  .of_sameSession fun s => h.sameSession world.session s

theorem observes (h : Observes q) : Yields world caches q .any :=
  .of_sameSession fun s => h.sameSession world.session s

/-- A fact that does not depend on the session follows from the answer alone. -/
theorem with_plain {P : α → Prop} (h : Yields world caches q .any)
    (hP : ∀ {s a t}, q world.session s = .ok a t → P a) : Yields world caches q (.plain P) :=
  h.sustains.with_plain hP

theorem inquire (i : Inquiry α) :
    Yields world caches (Query.request i.put) (.plain (i.Told world.table)) :=
  (consult (.inquire i)).with_plain Inquiry.told_of_request

theorem glance (g : Glance α) :
    Yields world caches (Query.ask g.put) (.plain fun a => world.glance g = a) := by
  refine (consult (.glance g)).with_plain fun hok => ?_
  rw [Query.ask_apply] at hok
  cases hok
  cases g <;> rfl

theorem resolve (handle : Handle kind) :
    Yields world caches (Query.resolve handle) (.issued handle) :=
  Sustains.resolve handle

/-! ## Wrappers and cells -/

/-- A wrapper is created from what the table says of its key. -/
theorem wrap (hkind : kind ≠ .node .valueArgument) {key : kind.Key}
    {make : Query ReturnTypes (Handle kind → kind.Wrapper)}
    (hmake : Yields world caches make (.plain fun build => ∀ id, kind.idOf (build id) = id ∧
      Made world.table kind key (build id))) :
    Yields world caches (Query.wrap kind key make) ((View.found kind).of key) := by
  refine Sustains.wrap hmake.sustains (fun hs hbuild => ?_) fun _ hw => hw
  exact hs.create (fun id => (hbuild id).1) (fun id => (hbuild id).2) fun id =>
    Kind.backed_of_ne hkind key (_ : kind.Wrapper)

/-- A field of an issued wrapper is kept, and it is as the fact says also if it was kept before. -/
theorem field {field : Field} (f : LazyField kind field) {w : kind.Wrapper}
    (hw : caches.Issued (kind.idOf w) w) {compute : Query ReturnTypes field.Value}
    (hcompute : Yields world caches compute (f.fact world.table w)) :
    Yields world caches (Query.memoize ((kind.idOf w).cell field) compute)
      (f.fact world.table w) := by
  refine Sustains.memoize hcompute.sustains (fun hs hgrows hfact => ?_) fun hs hgrows hcell => ?_
  · exact hs.fill (hw.grows hgrows) f hfact
  · exact hs.fact_of_get? (hw.grows hgrows) f hcell

end Yields

end SymbolGraph
