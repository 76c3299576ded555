import Mathlib.Logic.Relation
import SymbolGraph.Graph.Signature
import SymbolGraph.Proofs.Session.Primitives

/-!
# Regular queries

Everything that a session does is put together from a few primitives: it asks the front
end, looks up wrappers by their handles, creates wrappers under keys, and fills cells. The
queries that are put together in this way are *regular*. What holds of the primitives holds
of every regular query, by induction on how it is put together.
-/

namespace SymbolGraph

variable {σ α β : Type}

/-! ## Questions -/

/-- The questions that a front end may refuse, but for those about return types. -/
inductive Inquiry : Type → Type
  | file (key : FileKey) : Inquiry FileRecord
  | symbol (key : SymbolKey) : Inquiry SymbolRecord
  | annotationUse (key : AnnotationKey) : Inquiry AnnotationRecord
  | type (key : TypeKey) : Inquiry TypeRecord
  | classType (key : SymbolKey) : Inquiry TypeKey
  | starProjectedType (key : SymbolKey) : Inquiry TypeKey

def Inquiry.put : Inquiry α → Oracle σ → Answer σ α
  | .file key, o => o.file key
  | .symbol key, o => o.symbol key
  | .annotationUse key, o => o.annotationUse key
  | .type key, o => o.type key
  | .classType key, o => o.classType key
  | .starProjectedType key, o => o.starProjectedType key

/-- The questions that a front end always answers. -/
inductive Glance : Type → Type
  | newFiles : Glance (List FileKey)
  | declarationsInPackage (package : String) : Glance (List SymbolKey)
  | classByName (name : String) : Glance (Option SymbolKey)
  | classifier (key : TypeKey) : Glance (Option SymbolKey)
  | evaluateConstant (key : ExprKey) : Glance (Option Constant)
  | lineCol (file : FileKey) (offset : Nat) : Glance (Option LineCol)

def Glance.put : Glance α → Oracle σ → StateM σ α
  | .newFiles, o => o.newFiles
  | .declarationsInPackage package, o => o.declarationsInPackage package
  | .classByName name, o => o.classByName name
  | .classifier key, o => o.classifier key
  | .evaluateConstant key, o => o.evaluateConstant key
  | .lineCol file offset, o => o.lineCol file offset

/-- Only questions about return types change the state of the front end. -/
structure Oracle.Steady (o : Oracle σ) : Prop where
  inquiry : ∀ {α : Type} (i : Inquiry α) (x : σ), (i.put o x).2 = x
  glance : ∀ {α : Type} (g : Glance α) (x : σ), (g.put o x).2 = x

/-! ## Consultations -/

/-- Queries that ask the front end and look up wrappers, and change nothing in the session. A refusal
is passed on, except that the words of an error may depend on whether a symbol is known. -/
inductive Consult : {α : Type} → Query σ α → Prop
  | pure {α : Type} (a : α) : Consult (pure a)
  | throw {α : Type} (e : GraphError) : Consult (throw e : Query σ α)
  | bind {α β : Type} {x : Query σ α} {f : α → Query σ β} :
    Consult x → (∀ a, Consult (f a)) → Consult (x >>= f)
  | settings : Consult (read : Query σ (Session σ))
  | inquire {α : Type} (i : Inquiry α) : Consult (Query.request i.put)
  | glance {α : Type} (g : Glance α) : Consult (Query.ask g.put)
  | resolve {kind : Kind} (h : Handle kind) : Consult (Query.resolve h)
  | blame {α : Type} (key : SymbolKey) (e : Except OracleError SymbolRecord → GraphError) :
    Consult (Query.ask (·.symbol key) >>= fun answer => (throw (e answer) : Query σ α))

/-- A consultation leaves the caches and the cells as they are. -/
theorem Consult.sameSession {q : Query σ α} (h : Consult q) (session : Session σ)
    (s : SessionState σ) : s.SameSession (q.after session s) := by
  induction h generalizing s with
  | pure a => exact .refl s
  | throw e => exact .refl s
  | bind _ _ ihx ihf =>
    have hx := ihx s
    apply Action.after_bind (P := s.SameSession) hx
    intro a t hrun
    rw [Action.after_of_ok hrun] at hx
    exact hx.trans (ihf a t)
  | settings => exact .refl s
  | inquire i =>
    rw [Action.after, Query.request_apply]
    rcases i.put session.oracle s.oracle with ⟨_ | _, _⟩ <;> exact ⟨rfl, rfl⟩
  | glance g => exact ⟨rfl, rfl⟩
  | resolve handle =>
    rw [Query.resolve_after]
    exact .refl s
  | blame key e => exact ⟨rfl, rfl⟩

theorem Consult.oracle_eq {q : Query σ α} (h : Consult q) {session : Session σ}
    (hsteady : session.oracle.Steady) (s : SessionState σ) : (q.after session s).oracle = s.oracle := by
  induction h generalizing s with
  | pure a => rfl
  | throw e => rfl
  | bind _ _ ihx ihf =>
    have hx := ihx s
    apply Action.after_bind (P := fun t : SessionState σ => t.oracle = s.oracle) hx
    intro a t hrun
    rw [Action.after_of_ok hrun] at hx
    exact (ihf a t).trans hx
  | settings => rfl
  | inquire i =>
    rw [Query.request_after]
    exact hsteady.inquiry i s.oracle
  | glance g => exact hsteady.glance g s.oracle
  | resolve handle => rw [Query.resolve_after]
  | blame key e => exact hsteady.inquiry (.symbol key) s.oracle

theorem Consult.mapM {f : α → Query σ β} (h : ∀ a, Consult (f a)) (l : List α) :
    Consult (l.mapM f) := by
  induction l with
  | nil =>
    rw [List.mapM_nil]
    exact .pure _
  | cons a l ih =>
    rw [List.mapM_cons]
    exact .bind (h a) fun b => .bind ih fun bs => .pure _

/-! ## Regular queries -/

/-- Fields of a higher tier are found out from fields of a lower one. -/
def Field.tier : Field → Nat
  | .parent => 0
  | _ => 1

/-- Consultations that find out what a wrapper is made of. The wrapper carries the handle that it is
made for. -/
structure Makes {kind : Kind} (make : Query σ (Handle kind → kind.Wrapper)) : Prop where
  consult : Consult make
  numbers : ∀ {session s build t}, make session s = .ok build t → ∀ h, kind.idOf (build h) = h

namespace Makes

variable {kind : Kind}

theorem pure {build : Handle kind → kind.Wrapper} (h : ∀ id, kind.idOf (build id) = id) :
    Makes (pure build : Query σ _) := by
  refine ⟨.pure build, fun hok => ?_⟩
  cases hok
  exact h

theorem throw (e : GraphError) : Makes (throw e : Query σ (Handle kind → kind.Wrapper)) :=
  ⟨.throw e, fun hok => by cases hok⟩

theorem bind {x : Query σ α} {f : α → Query σ (Handle kind → kind.Wrapper)} (hx : Consult x)
    (hf : ∀ a, Makes (f a)) : Makes (x >>= f) := by
  refine ⟨.bind hx fun a => (hf a).consult, fun hok => ?_⟩
  obtain ⟨a, s', _, ha⟩ := Action.bind_eq_ok hok
  exact (hf a).numbers ha

end Makes

/-- A query that neither fills nor empties a cell. -/
def Spares (cell : Cell) (q : Query σ α) : Prop :=
  ∀ session s, (q.after session s).memo.get? cell = s.memo.get? cell

theorem Consult.spares {q : Query σ α} (h : Consult q) (cell : Cell) : Spares cell q :=
  fun session s => by rw [(h.sameSession session s).memo]

/-- A computation that fails does not fill this cell. -/
def KeepsEmpty (cell : Cell) (compute : Query σ α) : Prop :=
  ∀ session s e t, s.memo.get? cell = none → compute session s = .error e t →
    t.memo.get? cell = none

theorem Spares.keepsEmpty {cell : Cell} {q : Query σ α} (h : Spares cell q) : KeepsEmpty cell q := by
  intro session s e t hempty herr
  have hcell := h session s
  rw [Action.after_of_error herr] at hcell
  rw [hcell, hempty]

/-- If the cell is for the return type of a function, it is that of one of these functions. -/
def Cell.BelongsTo (reads : FunctionNode → Prop) (cell : Cell) : Prop :=
  cell.kind = .node .function → cell.field = .returnType →
    ∃ f, reads f ∧ cell = f.id.cell .returnType

/-- The cell is for the return type of a function. Accessors and callable types have one too. -/
def Cell.isReturnType (cell : Cell) : Bool :=
  cell.field == .returnType && cell.kind == .node .function

theorem Cell.BelongsTo.of_not_returnType {reads : FunctionNode → Prop} {cell : Cell}
    (h : cell.isReturnType = false) : cell.BelongsTo reads := by
  intro hkind hfield
  rw [isReturnType, hkind, hfield] at h
  cases h

/-- Queries put together from the primitives, that fill only cells below a tier and read only the
return types of some functions. -/
inductive Regular (reads : FunctionNode → Prop) (tier : Nat) : {α : Type} → Query σ α → Prop
  | consult {α : Type} {q : Query σ α} : Consult q → Regular reads tier q
  | bind {α β : Type} {x : Query σ α} {f : α → Query σ β} :
    Regular reads tier x → (∀ a, Regular reads tier (f a)) → Regular reads tier (x >>= f)
  | wrap {kind : Kind} {key : kind.Key} {make : Query σ (Handle kind → kind.Wrapper)} :
    Makes make → Regular reads tier (Query.wrap kind key make)
  | memoize {cell : Cell} {compute : Query σ cell.Value} :
    cell.field.tier < tier → cell.BelongsTo reads → Regular reads tier compute →
    KeepsEmpty cell compute → Regular reads tier (Query.memoize cell compute)
  | prepare {f : FunctionNode} : reads f → Regular reads tier f.prepare
  | prepared {f : FunctionNode} : reads f →
    Regular reads tier (f.prepare >>= fun _ => Query.request (·.returnType f.key))

/-- What happens to the state of a session in the course of a regular query. -/
inductive Step (tier : Nat) : SessionState σ → SessionState σ → Prop
  | quiet {s t : SessionState σ} : s.SameSession t → Step tier s t
  | create {s : SessionState σ} {kind : Kind} (key : kind.Key) {build : Handle kind → kind.Wrapper} :
    (∀ h, kind.idOf (build h) = h) → Step tier s (s.create kind key build).2
  | fill {s : SessionState σ} {cell : Cell} (v : cell.Value) :
    cell.field.tier < tier → Step tier s (s.fill cell v).2

/-- Any number of steps. -/
abbrev Steps (tier : Nat) : SessionState σ → SessionState σ → Prop :=
  Relation.ReflTransGen (Step tier)

theorem FunctionNode.prepare_apply (f : FunctionNode) (session : Session σ) (s : SessionState σ) :
    f.prepare session s =
      if f.needsSettling session.config then f.settle session s else .ok () s := by
  rw [prepare, Action.bind_apply]
  change (if f.needsSettling session.config then f.settle else pure ()) session s = _
  split <;> rfl

/-- Without a container there is nothing to settle the return type against. -/
theorem FunctionNode.settle_of_top {f : FunctionNode} (h : f.symbol.container = none)
    (session : Session σ) (s : SessionState σ) :
    f.settle session s = .error (.inconsistency s!"function `{f.simpleName}` ({f.symbol.kind.name})"
      "interop method with a declaring class" "no container") s := by
  rw [settle, h]
  change (f.context >>= fun _ => _) session s = _
  rw [Action.bind_apply, context, h]
  rfl

theorem FunctionNode.settle_of_member {f : FunctionNode} {owner : SymbolKey}
    (h : f.symbol.container = some owner) :
    (f.settle : Query σ Unit) = Query.request (·.resolveInteropReturnType f.key owner) := by
  rw [settle, h]

theorem FunctionNode.prepare_sameSession (f : FunctionNode) (session : Session σ)
    (s : SessionState σ) : s.SameSession (f.prepare.after session s) := by
  rw [Action.after, prepare_apply]
  cases f.needsSettling session.config with
  | false => exact .refl s
  | true =>
    simp only [if_true]
    cases hc : f.symbol.container with
    | none =>
      rw [settle_of_top hc]
      exact .refl s
    | some owner =>
      rw [settle_of_member hc, Query.request_apply]
      rcases session.oracle.resolveInteropReturnType f.key owner s.oracle with ⟨_ | _, _⟩ <;>
        exact ⟨rfl, rfl⟩

namespace Regular

variable {reads : FunctionNode → Prop} {tier : Nat} {q : Query σ α}

/-- A regular query changes the state of a session in steps, whether it fails or not. -/
theorem steps (h : Regular reads tier q) (session : Session σ) (s : SessionState σ) :
    Steps tier s (q.after session s) := by
  induction h generalizing s with
  | consult h => exact .single (.quiet (h.sameSession session s))
  | bind _ _ ihx ihf =>
    have hx := ihx s
    apply Action.after_bind (P := Steps tier s) hx
    intro a t hrun
    rw [Action.after_of_ok hrun] at hx
    exact hx.trans (ihf a t)
  | @wrap kind key make hmake =>
    have hquiet := hmake.consult.sameSession session s
    apply Query.wrap_after (P := Steps tier s) .refl (.single (.quiet hquiet))
    intro build t hrun
    rw [Action.after_of_ok hrun] at hquiet
    exact .head (.quiet hquiet) (.single (.create key (hmake.numbers hrun)))
  | memoize htier _ _ _ ih =>
    have hcompute := ih s
    apply Query.memoize_after (P := Steps tier s) .refl hcompute
    intro v t hrun
    rw [Action.after_of_ok hrun] at hcompute
    exact hcompute.tail (.fill v htier)
  | @prepare f _ => exact .single (.quiet (f.prepare_sameSession session s))
  | @prepared f _ =>
    have hprepare := f.prepare_sameSession session s
    apply Action.after_bind (P := Steps tier s) (.single (.quiet hprepare))
    intro _ t hrun
    rw [Action.after_of_ok hrun] at hprepare
    rw [Action.after, Query.request_apply]
    refine .single (.quiet (hprepare.trans ?_))
    rcases session.oracle.returnType f.key t.oracle with ⟨_ | _, _⟩ <;> exact ⟨rfl, rfl⟩

end Regular

namespace Steps

variable {tier : Nat} {s t : SessionState σ}

theorem grows (h : Steps tier s t) : s.Grows t := by
  induction h with
  | refl => exact .refl s
  | tail _ hstep ih =>
    refine ih.trans ?_
    cases hstep with
    | quiet hsame => exact hsame.grows
    | create key _ => exact SessionState.create_grows _ key _
    | fill v _ => exact SessionState.fill_grows _ _ v

/-- Cells of this tier and above stay as they are. -/
theorem get?_of_tier_le (h : Steps tier s t) {cell : Cell} (hcell : tier ≤ cell.field.tier) :
    t.memo.get? cell = s.memo.get? cell := by
  induction h with
  | refl => rfl
  | tail _ hstep ih =>
    rw [← ih]
    cases hstep with
    | quiet hsame => rw [hsame.memo]
    | create key _ => rfl
    | @fill other v htier =>
      rw [SessionState.fill]
      split
      · rfl
      · have hne : cell ≠ other := by
          rintro rfl
          omega
        exact Memo.get?_insert_of_ne hne

end Steps

namespace Regular

variable {reads : FunctionNode → Prop} {tier : Nat} {q : Query σ α}

theorem grows_of_ok (h : Regular reads tier q) {session : Session σ} {s t : SessionState σ} {a : α}
    (hok : q session s = .ok a t) : s.Grows t := by
  have hsteps := h.steps session s
  rw [Action.after_of_ok hok] at hsteps
  exact hsteps.grows

/-- A regular query fills no cell of its tier or above. -/
theorem spares (h : Regular reads tier q) {cell : Cell} (hcell : tier ≤ cell.field.tier) :
    Spares cell q :=
  fun session s => (h.steps session s).get?_of_tier_le hcell

theorem mono {tier' : Nat} (h : Regular reads tier q) (hle : tier ≤ tier') :
    Regular reads tier' q := by
  induction h with
  | consult h => exact .consult h
  | bind _ _ ihx ihf => exact .bind ihx ihf
  | wrap hmake => exact .wrap hmake
  | memoize htier hcell _ hempty ih => exact .memoize (Nat.lt_of_lt_of_le htier hle) hcell ih hempty
  | prepare hf => exact .prepare hf
  | prepared hf => exact .prepared hf

theorem mapM {f : α → Query σ β} (h : ∀ a, Regular reads tier (f a)) (l : List α) :
    Regular reads tier (l.mapM f) := by
  induction l with
  | nil =>
    rw [List.mapM_nil]
    exact .consult (.pure _)
  | cons a l ih =>
    rw [List.mapM_cons]
    refine .bind (h a) fun b => .bind ih fun bs => .consult (.pure _)

end Regular

/-! ## Wrapping and fields -/

/-- A request for the wrapper of a kind with a key. -/
def Wraps (kind : Kind) (key : kind.Key) (q : Query σ kind.Wrapper) : Prop :=
  ∃ make, Makes make ∧ q = Query.wrap kind key make

namespace Wraps

variable {kind : Kind} {key : kind.Key}

theorem intro {make : Query σ (Handle kind → kind.Wrapper)} (h : Makes make) :
    Wraps kind key (Query.wrap kind key make) :=
  ⟨make, h, rfl⟩

theorem regular {reads : FunctionNode → Prop} {tier : Nat} {q : Query σ kind.Wrapper}
    (h : Wraps kind key q) : Regular reads tier q := by
  obtain ⟨make, hmake, rfl⟩ := h
  exact .wrap hmake

end Wraps

/-- A field that is found out once and kept. If it cannot be found out, its cell stays empty. -/
def Kept (reads : FunctionNode → Prop) (cell : Cell) (q : Query σ cell.Value) : Prop :=
  cell.BelongsTo reads ∧ ∃ compute, Regular reads 2 compute ∧ KeepsEmpty cell compute ∧
    q = Query.memoize cell compute

namespace Kept

variable {reads : FunctionNode → Prop} {cell : Cell}

/-- What is found out from fields of lower tiers does not fill the cell by itself. -/
theorem of_belongsTo {compute : Query σ cell.Value} (hcell : cell.BelongsTo reads)
    (h : Regular reads cell.field.tier compute) : Kept reads cell (Query.memoize cell compute) := by
  have htier : cell.field.tier ≤ 2 := by
    cases cell.field <;> decide
  have hempty : KeepsEmpty cell compute := (h.spares (Nat.le_refl _)).keepsEmpty
  exact ⟨hcell, compute, h.mono htier, hempty, rfl⟩

theorem intro {compute : Query σ cell.Value} (hcell : cell.isReturnType = false)
    (h : Regular reads cell.field.tier compute) : Kept reads cell (Query.memoize cell compute) :=
  of_belongsTo (.of_not_returnType hcell) h

theorem regular {q : Query σ cell.Value} (h : Kept reads cell q) : Regular reads 2 q := by
  obtain ⟨hcell, compute, hcompute, hempty, rfl⟩ := h
  refine .memoize ?_ hcell hcompute hempty
  cases cell.field <;> decide

end Kept

/-! ## Failures that leave a cell empty -/

namespace KeepsEmpty

variable {cell : Cell}

theorem bind {x : Query σ α} {f : α → Query σ β} (hx : Spares cell x)
    (hf : ∀ a, KeepsEmpty cell (f a)) : KeepsEmpty cell (x >>= f) := by
  intro session s e t hempty herr
  rcases Action.bind_eq_error herr with hx' | ⟨a, s', hok, herr⟩
  · exact hx.keepsEmpty session s e t hempty hx'
  · have hcell := hx session s
    rw [Action.after_of_ok hok] at hcell
    exact hf a session s' e t (hcell.trans hempty) herr

/-- After the cell may have been filled, nothing can fail any more. -/
theorem bind_pure {x : Query σ α} (hx : KeepsEmpty cell x) (g : α → β) :
    KeepsEmpty cell (x >>= fun a => pure (g a)) := by
  intro session s e t hempty herr
  rcases Action.bind_eq_error herr with hx' | ⟨a, s', _, herr⟩
  · exact hx session s e t hempty hx'
  · cases herr

theorem memoize {other : Cell} {compute : Query σ other.Value} (h : KeepsEmpty cell compute) :
    KeepsEmpty cell (Query.memoize other compute) := by
  intro session s e t hempty herr
  exact h session s e t hempty (Query.memoize_eq_error herr).2

end KeepsEmpty

/-! ## Observations -/

/-- A query that always has an answer, and changes nothing but the front end, and not even that if it
is steady. -/
def Observes (q : Query σ α) : Prop :=
  ∀ session s, ∃ a oracle, q session s = .ok a { s with oracle } ∧
    (session.oracle.Steady → oracle = s.oracle)

namespace Observes

theorem pure (a : α) : Observes (pure a : Query σ α) := fun _ s => ⟨a, s.oracle, rfl, fun _ => rfl⟩

theorem inquire (i : Inquiry α) : Observes (Query.ask i.put : Query σ _) :=
  fun session s => ⟨_, _, Query.ask_apply session s i.put, fun hsteady => hsteady.inquiry i s.oracle⟩

theorem glance (g : Glance α) : Observes (Query.ask g.put : Query σ _) :=
  fun session s => ⟨_, _, Query.ask_apply session s g.put, fun hsteady => hsteady.glance g s.oracle⟩

theorem find? {kind : Kind} (h : Handle kind) : Observes (Query.find? h : Query σ _) :=
  fun session s => ⟨_, s.oracle, Query.find?_apply session s h, fun _ => rfl⟩

theorem get : Observes (get : Query σ (SessionState σ)) := fun _ s => ⟨s, s.oracle, rfl, fun _ => rfl⟩

theorem bind {x : Query σ α} {f : α → Query σ β} (hx : Observes x) (hf : ∀ a, Observes (f a)) :
    Observes (x >>= f) := by
  intro session s
  obtain ⟨a, oracle, hx, hsame⟩ := hx session s
  obtain ⟨b, oracle', hf, hsame'⟩ := hf a session { s with oracle }
  refine ⟨b, oracle', (Action.bind_of_ok hx f).trans hf, fun hsteady => ?_⟩
  rw [hsame' hsteady, hsame hsteady]

theorem sameSession {q : Query σ α} (h : Observes q) (session : Session σ) (s : SessionState σ) :
    s.SameSession (q.after session s) := by
  obtain ⟨a, oracle, hok, _⟩ := h session s
  rw [Action.after_of_ok hok]
  exact ⟨rfl, rfl⟩

end Observes

end SymbolGraph
