import SymbolGraph.Proofs.Session.Memo
import SymbolGraph.Proofs.Tidy.Frame
import SymbolGraph.Proofs.Tidy.Run
import SymbolGraph.Proofs.Tidy.Success

/-!
# Return types of platform methods

Reading the return type of a platform method may change the table. What is read does not depend on
what was read before: the return type of a function is told by the table that the session started
with, and it waits to be settled until it is read for the first time.
-/

namespace SymbolGraph

variable {α : Type} {world : World} {types : ReturnTypes} {caches : Caches} {kind : Kind} {field : Field}
  {s t : SessionState ReturnTypes} {function owner : SymbolKey}

/-! ## Reading a return type -/

namespace FunctionNode

variable {f : FunctionNode}

/-- Reading the return type of a function touches no other one. -/
theorem returnType_touches (f : FunctionNode) (s : SessionState ReturnTypes) :
    s.Touches world.config (· = f) (f.returnType.after world.session s) := by
  have hkept : Kept (· = f) (f.id.cell .returnType) (f.returnType : Query ReturnTypes _) :=
    f.returnType_kept rfl
  exact hkept.regular.touches s

section

variable (hconstructor : f.details.isConstructor = false)
  (hempty : s.memo.get? (f.id.cell .returnType) = none)
  (hprepare : f.prepare world.session s = .ok () { s with oracle := types })
include hconstructor hempty hprepare

/-- The type that is known after the function was prepared is its return type. -/
theorem returnType_of_known (hs : Tidy world.table s) (hf : s.caches.Issued f.id f) {type : TypeKey}
    (hknown : types.known[f.key]? = some type) :
    ∃ r t, f.returnType world.session s = .ok r t ∧ r.type = type ∧
      t.oracle.entry f.key = types.entry f.key := by
  have hprepared : Tidy world.table { s with oracle := types } := hs.of_sameSession ⟨rfl, rfl⟩
  have hkey : f.returnTypeKey world.session { s with oracle := types } =
      .ok type { s with oracle := types } := by
    have hanswer : world.session.oracle.returnType f.key types = (.ok type, types) :=
      congrArg (SymbolTable.answer · _ types) hknown
    rw [returnTypeKey, hconstructor, if_neg Bool.false_ne_true, Query.request_apply, hanswer]
  obtain ⟨r, t, hrun⟩ : (Query.primaryReference type f.id.node).Succeeds world.session
      { s with oracle := types } := by
    refine Query.typeReference_succeeds fun node hnode => ?_
    cases hnode
    exact ⟨f, hf⟩
  obtain ⟨ht, -, hr⟩ := (Query.primaryReference_yields type _).of_ok hprepared hrun
  -- Wrapping the reference neither settles anything nor fills the cell.
  have htouches : SessionState.Touches world.config (fun _ => False) { s with oracle := types } t :=
    Action.after_of_ok hrun ▸
      (((Query.primaryReference_wraps type f.id.node).regular : Regular _ 0 _).touches _)
  have hcell : t.memo.get? (f.id.cell .returnType) = none :=
    (htouches.cell fun _ hfalse => hfalse.elim).trans hempty
  have hcompute : (f.prepare >>= fun _ => f.returnTypeKey >>= fun key =>
      Query.primaryReference key f.id.node) world.session s = .ok r t := by
    rw [Action.bind_of_ok hprepare, Action.bind_of_ok hkey, hrun]
  have hfill : t.fill (f.id.cell .returnType) r =
      (r, { t with memo := t.memo.insert (f.id.cell .returnType) r }) := by
    rw [SessionState.fill, hcell]
  refine ⟨r, { t with memo := t.memo.insert (f.id.cell .returnType) r }, ?_, ?_, ?_⟩
  · rw [returnType, Query.memoize_apply, hempty]
    simp only [hcompute, hfill]
  · cases ht.genuine.made _ hr
    rfl
  · rcases htouches.entry f.key with hsame | ⟨_, hfalse, _⟩
    · exact hsame
    · exact hfalse.elim

theorem returnType_of_unknown (hknown : types.known[f.key]? = none) :
    ∃ e, f.returnType world.session s = .error e { s with oracle := types } := by
  have hkey : f.returnTypeKey world.session { s with oracle := types } =
      .error (.oracle (.unknownSymbol f.key)) { s with oracle := types } := by
    have hanswer : world.session.oracle.returnType f.key types =
        (.error (.unknownSymbol f.key), types) :=
      congrArg (SymbolTable.answer · _ types) hknown
    rw [returnTypeKey, hconstructor, if_neg Bool.false_ne_true, Query.request_apply, hanswer]
  have hcompute : (f.prepare >>= fun _ => f.returnTypeKey >>= fun key =>
      Query.primaryReference key f.id.node) world.session s =
        .error (.oracle (.unknownSymbol f.key)) { s with oracle := types } := by
    rw [Action.bind_of_ok hprepare, Action.bind_of_error hkey]
  refine ⟨.oracle (.unknownSymbol f.key), ?_⟩
  rw [returnType, Query.memoize_apply, hempty]
  simp only [hcompute]

end

/-- Either the return type is found out now, or nothing changes at all. -/
theorem returnType_cases (hs : Tidy world.table s) (hf : s.caches.Issued f.id f)
    (hconstructor : f.details.isConstructor = false) :
    f.returnType.after world.session s = s ∨
      ∃ r t, f.returnType world.session s = .ok r t ∧
        t.oracle.entry f.key = (f.preparedTypes world.config s.oracle).entry f.key ∧
        (t.oracle.entry f.key).1 = some r.type := by
  cases hcell : s.memo.get? (f.id.cell .returnType) with
  | some r => exact .inl (Action.after_of_ok (Query.memoize_of_get? hcell _))
  | none =>
    have hfound : (Declaration.function f).FoundUnder s.caches f.key := hs.genuine.lookup_function hf
    rcases prepare_cases (hfound.genuine hs.genuine).symbol s with hprepare | ⟨e, herror⟩
    · cases hknown : (f.preparedTypes world.config s.oracle).known[f.key]? with
      | some type =>
        obtain ⟨r, t, hrun, rfl, hentry⟩ :=
          returnType_of_known hconstructor hcell hprepare hs hf hknown
        refine .inr ⟨r, t, hrun, hentry, ?_⟩
        rw [hentry]
        exact hknown
      | none =>
        obtain ⟨e, hrun⟩ := returnType_of_unknown hconstructor hcell hprepare hknown
        rw [preparedTypes_of_unknown hknown] at hrun
        exact .inl (Action.after_of_error hrun)
    · have hrun : f.returnType world.session s = .error e s := by
        rw [returnType, Query.memoize_apply, hcell]
        simp only [Action.bind_of_error herror]
      exact .inl (Action.after_of_error hrun)

end FunctionNode

/-! ## What was settled -/

/-- The return type of the function was found out. What became of a constructor's is left open. -/
def SessionState.HasRead (s : SessionState ReturnTypes) (f : FunctionNode) : Prop :=
  s.caches.Issued f.id f ∧
    (f.details.isConstructor = false → ∃ r, s.memo.get? (f.id.cell .returnType) = some r)

theorem SessionState.HasRead.grows {f : FunctionNode} (h : s.HasRead f) (hgrows : s.Grows t) :
    t.HasRead f := by
  refine ⟨h.1.grows hgrows.caches, fun hconstructor => ?_⟩
  obtain ⟨r, hr⟩ := h.2 hconstructor
  exact ⟨r, hgrows.memo hr⟩

/-- The return types of a session that started with these ones. Only those that were read are settled by
now, and what was read of one is what is known of it. -/
structure Accounted (world : World) (types : ReturnTypes) (s : SessionState ReturnTypes) : Prop where
  tidy : Tidy world.table s
  touched : (SessionState.start types).Touches world.config s.HasRead s
  known : ∀ {f : FunctionNode} {r : TypeReference}, s.caches.Issued f.id f →
    f.details.isConstructor = false → s.memo.get? (f.id.cell .returnType) = some r →
    s.oracle.entry f.key = (f.preparedTypes world.config types).entry f.key ∧
      (s.oracle.entry f.key).1 = some r.type

namespace Accounted

variable {f : FunctionNode}

theorem start (world : World) (types : ReturnTypes) : Accounted world types (.start types) where
  tidy := .start world.table types
  touched := .refl _
  known _ _ hr := by simp [SessionState.start] at hr

/-- Preparing a function now comes to the same as preparing it at the start. -/
theorem entry_prepared (h : Accounted world types s) (hf : s.caches.Issued f.id f) :
    (f.preparedTypes world.config s.oracle).entry f.key =
      (f.preparedTypes world.config types).entry f.key := by
  rw [FunctionNode.entry_preparedTypes, FunctionNode.entry_preparedTypes]
  rcases h.touched.entry f.key with hsame | ⟨g, hg, hkey, hneeds, hsettled⟩
  · rw [hsame]
    rfl
  · cases h.tidy.genuine.function_unique hg.1 hf hkey
    rw [hneeds, if_pos rfl, if_pos rfl, hsettled, settledEntry_settledEntry]
    rfl

/-- What is known of a function stays known if neither it nor its cell is touched. -/
theorem known_of_touches {reads : FunctionNode → Prop} (h : Accounted world types s)
    (ht : Tidy world.table t) (hgrows : s.Grows t) (htouches : s.Touches world.config reads t)
    (hreads : ∀ g, reads g → t.caches.Issued g.id g ∧ g ≠ f) {r : TypeReference}
    (hf : t.caches.Issued f.id f) (hconstructor : f.details.isConstructor = false)
    (hr : t.memo.get? (f.id.cell .returnType) = some r) :
    t.oracle.entry f.key = (f.preparedTypes world.config types).entry f.key ∧
      (t.oracle.entry f.key).1 = some r.type := by
  have hcell : t.memo.get? (f.id.cell .returnType) = s.memo.get? (f.id.cell .returnType) := by
    refine htouches.cell fun g hg hid => (hreads g hg).2 ?_
    have hissued := (hreads g hg).1
    rw [hid] at hissued
    exact Option.some.inj (hissued.symm.trans hf)
  rw [hcell] at hr
  -- The cell was filled before, so the function was issued before.
  obtain ⟨w, _, hw, _⟩ := h.tidy.held hr
  have hwf : w = f := Option.some.inj ((hw.grows hgrows.caches).symm.trans hf)
  have hfs : s.caches.Issued f.id f := hwf ▸ hw
  rcases htouches.entry f.key with hsame | ⟨g, hg, hkey, _, _⟩
  · rw [hsame]
    exact h.known hfs hconstructor hr
  · exact absurd (ht.genuine.function_unique (hreads g hg).1 hf hkey) (hreads g hg).2

/-- Touching constructors does no harm. -/
theorem of_touches {reads : FunctionNode → Prop} (h : Accounted world types s)
    (ht : Tidy world.table t) (hgrows : s.Grows t) (htouches : s.Touches world.config reads t)
    (hreads : ∀ g, reads g → t.caches.Issued g.id g ∧ g.details.isConstructor = true) :
    Accounted world types t := by
  refine ⟨ht, ?_, fun hf hconstructor => ?_⟩
  · refine (h.touched.mono fun g hg => hg.grows hgrows).trans (htouches.mono fun g hg => ?_)
    refine ⟨(hreads g hg).1, fun hconstructor => ?_⟩
    rw [(hreads g hg).2] at hconstructor
    cases hconstructor
  · refine h.known_of_touches ht hgrows htouches (fun g hg => ⟨(hreads g hg).1, ?_⟩) hf hconstructor
    rintro rfl
    rw [(hreads g hg).2] at hconstructor
    cases hconstructor

/-- Reading a return type settles it if it has to be settled, and keeps what is known of it then. -/
theorem read (h : Accounted world types s) (hf : s.caches.Issued f.id f) :
    Accounted world types (f.returnType.after world.session s) := by
  obtain ⟨ht, -, -⟩ := f.returnType_yields hf s h.tidy (.refl _)
  have hkept : Kept (fun _ => True) (f.id.cell .returnType) (f.returnType : Query ReturnTypes _) :=
    f.returnType_kept trivial
  have hgrows : s.Grows (f.returnType.after world.session s) :=
    (hkept.regular.steps world.session s).grows
  have htouches : s.Touches world.config (· = f) (f.returnType.after world.session s) :=
    f.returnType_touches s
  by_cases hconstructor : f.details.isConstructor = true
  · refine h.of_touches ht hgrows htouches ?_
    rintro g rfl
    exact ⟨hf.grows hgrows.caches, hconstructor⟩
  rw [Bool.not_eq_true] at hconstructor
  rcases FunctionNode.returnType_cases h.tidy hf hconstructor with
    hsame | ⟨r, t, hrun, hentry, hknown⟩
  · rw [hsame]
    exact h
  rw [Action.after_of_ok hrun] at *
  have hcell : t.memo.get? (f.id.cell .returnType) = some r := hkept.get?_of_ok hrun
  refine ⟨ht, ?_, fun {g r'} hg hother hr' => ?_⟩
  · refine (h.touched.mono fun g hg => hg.grows hgrows).trans (htouches.mono ?_)
    rintro g rfl
    exact ⟨hf.grows hgrows.caches, fun _ => ⟨r, hcell⟩⟩
  · by_cases hgf : g = f
    · subst hgf
      cases hr'.symm.trans hcell
      exact ⟨hentry.trans (h.entry_prepared hf), hknown⟩
    · refine h.known_of_touches ht hgrows htouches ?_ hg hother hr'
      rintro g' rfl
      exact ⟨hf.grows hgrows.caches, fun heq => hgf heq.symm⟩

end Accounted

/-! ## Operations -/

namespace Yields

variable {F : Fact α} {q : Query ReturnTypes α}

/-- A query that reads no return type of a function touches none. -/
theorem accounts (h : Yields world caches q F) {q' : Query ReturnTypes α}
    (hregular : Regular (fun _ => False) 2 q') (hq : q world.session = q' world.session) :
    Sustains world.session (Accounted world types) caches q F := by
  intro s hs hgrows
  obtain ⟨ht, hlater, hfact⟩ := h s hs.tidy hgrows
  refine ⟨?_, hlater, hfact⟩
  have hafter : q.after world.session s = q'.after world.session s := by
    rw [Action.after, Action.after, hq]
  rw [hafter] at ht ⊢
  exact hs.of_touches ht (hregular.steps world.session s).grows (hregular.touches s)
    fun _ hfalse => hfalse.elim

theorem accounts_of_observes (h : Observes q) :
    Sustains world.session (Accounted world types) caches q .any := by
  intro s hs hgrows
  obtain ⟨ht, hlater, hfact⟩ := (Yields.observes h : Yields world caches q .any) s hs.tidy hgrows
  obtain ⟨a, oracle, hrun, hsteady⟩ := h world.session s
  cases hsteady world.table.oracle_steady
  rw [Action.after_of_ok hrun] at *
  exact ⟨hs, hlater, hfact⟩

end Yields

theorem Kind.eq_function_of_function? {w : kind.Wrapper} {g : FunctionNode}
    (h : kind.function? w = some g) : kind = .node .function := by
  rcases kind with (_ | _) | _ <;> first | rfl | cases h

theorem LazyField.read_accounts (f : LazyField kind field) {w : kind.Wrapper}
    (hw : caches.Issued (kind.idOf w) w) :
    Sustains world.session (Accounted world types) caches (f.read w) (f.fact world.table w) := by
  by_cases hreturn : field = .returnType ∧ kind = .node .function
  · obtain ⟨rfl, rfl⟩ := hreturn
    cases f
    intro s hs hgrows
    obtain ⟨_, hlater, hfact⟩ := LazyField.functionReturnType.read_yields hw s hs.tidy hgrows
    exact ⟨hs.read (hw.grows hgrows), hlater, hfact⟩
  · have hreads : field = .returnType → ∀ g, kind.function? w = some g → False :=
      fun hfield g hg => hreturn ⟨hfield, Kind.eq_function_of_function? hg⟩
    obtain ⟨q, hkept, hq⟩ := f.read_kept w hreads world.session
    exact (f.read_yields hw).accounts hkept.regular hq

theorem FunctionNode.children_accounts {w : FunctionNode} (hw : caches.Issued w.id w) :
    Sustains world.session (Accounted world types) caches w.children .any := by
  refine .bind (LazyField.functionAnnotations.read_accounts hw) fun hgrows _ => ?_
  have hw := Caches.Issued.grows hw hgrows
  refine .bind (LazyField.functionTypeParameters.read_accounts hw) fun hgrows _ => ?_
  have hw := Caches.Issued.grows hw hgrows
  refine .bind (LazyField.functionReceiverType.read_accounts hw) fun hgrows _ => ?_
  have hw := Caches.Issued.grows hw hgrows
  refine .bind (LazyField.functionParameters.read_accounts hw) fun hgrows _ => ?_
  have hw := Caches.Issued.grows hw hgrows
  refine .bind (LazyField.functionReturnType.read_accounts hw) fun hgrows _ => ?_
  refine .bind ((Query.declarationNodes_yields w.declarationKeys).accounts
    (Query.declarationNodes_regular _) rfl) fun _ _ => ?_
  exact .pure trivial

theorem Reading.query_accounts (r : Reading kind α) {w : kind.Wrapper}
    (hw : caches.Issued (kind.idOf w) w) :
    Sustains world.session (Accounted world types) caches (r.query w) .any := by
  by_cases htakes : r.TakesReturnType ∧ kind = .node .function
  · obtain ⟨htakes, rfl⟩ := htakes
    cases r with
    | field f => exact (f.read_accounts hw).to_any
    | children => exact FunctionNode.children_accounts hw
    | _ => cases htakes
  · have hreads : r.TakesReturnType → ∀ g, kind.function? w = some g → False :=
      fun htaken g hg => htakes ⟨htaken, Kind.eq_function_of_function? hg⟩
    rcases r.query_regular w hreads world.session with hobserves | ⟨q, hregular, hq⟩
    · exact Yields.accounts_of_observes hobserves
    · exact (r.query_yields hw).accounts hregular hq

theorem Operation.query_accounts (op : Operation α) :
    Sustains world.session (Accounted world types) caches op.query .any := by
  cases op with
  | wrap w => exact w.query_yields.to_any.accounts w.query_wraps.regular rfl
  | declaration key =>
    exact (Query.declaration_yields key).to_any.accounts (Query.declaration_regular key) rfl
  | nodeDeclaration node =>
    exact (Query.nodeDeclaration_yields node).to_any.accounts
      (.consult (Query.nodeDeclaration_consult node)) rfl
  | read handle r =>
    refine Sustains.bind (.resolve handle) fun _ hw => .of_law fun hs hgrows => r.query_accounts ?_
    have hissued := Caches.Issued.grows hw hgrows
    rw [hs.tidy.genuine.idOf_eq hissued]
    exact hissued

/-! ## Runs -/

/-- The states that a session over a table gets into by operations and walks alone, with issued handles
or forged ones, if the front end starts with these return types. -/
inductive World.Undisturbed (world : World) (types : ReturnTypes) : SessionState ReturnTypes → Prop
  | start : Undisturbed world types (.start types)
  | operate {s : SessionState ReturnTypes} {α : Type} (op : Operation α) :
    Undisturbed world types s → Undisturbed world types (op.query.after world.session s)
  | walk {s : SessionState ReturnTypes} (verdict : List NodeId → NodeId → Option GraphError)
    (steps : Nat) (stack visited : List NodeId) : Undisturbed world types s →
    Undisturbed world types
      (((Visitor.observer verdict).walk steps stack).after world.session (visited, s)).2

theorem World.Undisturbed.accounted (h : world.Undisturbed types s) : Accounted world types s := by
  induction h with
  | start => exact .start world types
  | operate op _ ih => exact (op.query_accounts _ ih (.refl _)).1
  | walk verdict steps stack visited _ ih =>
    apply Visitor.walk_invariant (P := fun x => Accounted world types x.2) _ _ steps stack ih
    · intro node x hx
      rw [Visitor.accept_observer]
      exact hx
    · intro node x hx
      exact ((Operation.read node.handle .children).query_accounts x.2 hx (.refl _)).1

/-- A platform method has its return type settled, unless the settings say otherwise. -/
theorem World.settles_iff {symbol : SymbolRecord} {details : FunctionDetails}
    (hsymbol : world.table.symbols[function.index]? = some symbol)
    (hdetails : symbol.details = .function details) :
    world.Settles function ↔ (world.config.interopReturnTypeWorkaround && symbol.origin.isInterop &&
      details.isInteropMethod) = true := by
  have hinquire : world.inquire (.symbol function) = .ok symbol := by
    have hpeek : world.peek (.symbol function) = world.table.symbols[function.index]?.elim
      (.error (.unknownSymbol function)) .ok := rfl
    rw [inquire, hpeek, hsymbol]
    rfl
  have hportrait : (Entity.function function).portrait world =
      .ok { id := ⟨0⟩, key := function, symbol, details } := by
    rw [Entity.portrait, hinquire, Meaning.ok_bind, hdetails]
    rfl
  constructor
  · rintro ⟨f, hf, hneeds⟩
    cases hportrait.symm.trans hf
    exact hneeds
  · intro hneeds
    exact ⟨_, hportrait, hneeds⟩

namespace World.Admits

/-- Settling a return type comes to the same at any time. -/
theorem settledEntry_eq (h : world.Admits types) (function : SymbolKey) :
    settledEntry (types.entry function) = (world.settledType function, none) := by
  unfold settledEntry ReturnTypes.entry settledType
  rcases h function with ⟨hknown, hdeferred⟩ | ⟨_, hknown, hdeferred⟩
  · rw [hknown, hdeferred]
  · rw [hknown, hdeferred]
    rfl

end World.Admits

/-- Later sessions with the same settings may go on with the return types that one leaves behind. -/
theorem World.Undisturbed.admits (htypes : world.Admits types) (hs : world.Undisturbed types s) :
    world.Admits s.oracle := by
  intro function
  rcases hs.accounted.touched.entry function with hsame | ⟨f, hf, rfl, hneeds, hsettled⟩
  · obtain ⟨hknown, hdeferred⟩ := Prod.mk.inj hsame
    rw [hknown, hdeferred]
    exact htypes function
  · have hentry : s.oracle.entry f.key = (world.settledType f.key, none) :=
      hsettled.trans (htypes.settledEntry_eq f.key)
    obtain ⟨hknown, hdeferred⟩ := Prod.mk.inj hentry
    refine .inr ⟨?_, hknown, hdeferred⟩
    obtain ⟨key, hkey⟩ := hs.accounted.tidy.genuine.exists_key hf.1
    cases hs.accounted.tidy.genuine.made _ hkey with | function id hsymbol hdetails =>
    exact (World.settles_iff hsymbol hdetails).mpr hneeds

/-! ## Independence of the order of reading -/

/-- The return type of the function was read. -/
def SessionState.HasReturnType (s : SessionState ReturnTypes) (function : SymbolKey) : Prop :=
  ∃ f r, s.caches.lookup (.node .function) function = some f ∧
    s.memo.get? (f.id.cell .returnType) = some r

theorem SymbolTable.hasDeferredReturnType_iff :
    SymbolTable.hasDeferredReturnType types function = true ↔ (types.entry function).2.isSome := by
  rw [hasDeferredReturnType, Std.TreeMap.contains_eq_isSome_getElem?]
  rfl

namespace Accounted

variable {f : FunctionNode}

/-- What is read of a function was known at the start, or was known as soon as it was settled then. -/
theorem returnType_eq (h : Accounted world types s) (hf : s.caches.Issued f.id f)
    (hconstructor : f.details.isConstructor = false) {r : TypeReference}
    (hrun : f.returnType world.session s = .ok r t) :
    t.HasReturnType f.key ∧ some r.type = ((f.preparedTypes world.config types).entry f.key).1 := by
  have ht := h.read hf
  have hgrows := (f.returnType_yields hf s h.tidy (.refl _)).2.1
  rw [Action.after_of_ok hrun] at ht hgrows
  have hcell : t.memo.get? (f.id.cell .returnType) = some r := Query.get?_of_memoize hrun
  obtain ⟨hentry, hknown⟩ := ht.known (hf.grows hgrows) hconstructor hcell
  refine ⟨⟨f, r, ht.tidy.genuine.lookup_function (hf.grows hgrows), hcell⟩, ?_⟩
  rw [← hentry, hknown]

/-- What waits to be settled can be read. -/
theorem returnType_succeeds (h : Accounted world types s) (hf : s.caches.Issued f.id f)
    (hconstructor : f.details.isConstructor = false) (hcontainer : f.symbol.container = some owner)
    (hneeds : f.needsSettling world.config = true)
    (hdeferred : SymbolTable.hasDeferredReturnType types f.key = true) :
    f.returnType.Succeeds world.session s := by
  cases hcell : s.memo.get? (f.id.cell .returnType) with
  | some r => exact ⟨r, s, Query.memoize_of_get? hcell _⟩
  | none =>
    have hfound : (Declaration.function f).FoundUnder s.caches f.key :=
      h.tidy.genuine.lookup_function hf
    have hprepare := FunctionNode.prepare_of_member (s := s) (hfound.genuine h.tidy.genuine).symbol
      hcontainer
    obtain ⟨type, htype⟩ : ∃ type, types.deferred[f.key]? = some type :=
      Option.isSome_iff_exists.mp (SymbolTable.hasDeferredReturnType_iff.mp hdeferred)
    have hknown : (f.preparedTypes world.config s.oracle).known[f.key]? = some type := by
      have hentry := h.entry_prepared hf
      rw [FunctionNode.entry_preparedTypes f world.config types, if_pos hneeds] at hentry
      have hfirst := congrArg Prod.fst hentry
      simpa [settledEntry, ReturnTypes.entry, htype] using hfirst
    obtain ⟨r, t, hrun, -⟩ :=
      FunctionNode.returnType_of_known hconstructor hcell hprepare h.tidy hf hknown
    exact ⟨r, t, hrun⟩

/-- A function waits to be settled until it is read. -/
theorem hasDeferredReturnType_iff (h : Accounted world types s) {symbol : SymbolRecord}
    {details : FunctionDetails} (hsymbol : world.table.symbols[function.index]? = some symbol)
    (hdetails : symbol.details = .function details) (hconstructor : details.isConstructor = false) :
    SymbolTable.hasDeferredReturnType s.oracle function = true ↔
      SymbolTable.hasDeferredReturnType types function = true ∧
        ¬((world.config.interopReturnTypeWorkaround && symbol.origin.isInterop &&
          details.isInteropMethod) = true ∧ s.HasReturnType function) := by
  rw [SymbolTable.hasDeferredReturnType_iff, SymbolTable.hasDeferredReturnType_iff]
  constructor
  · intro hwaits
    rcases h.touched.entry function with hsame | ⟨_, _, _, _, hsettled⟩
    · rw [hsame] at hwaits
      refine ⟨hwaits, ?_⟩
      rintro ⟨heligible, f, r, hf, hr⟩
      obtain ⟨rfl, rfl, rfl⟩ := h.tidy.genuine.function_shown hf hsymbol hdetails
      -- What was read of a platform method is settled, and does not wait any more.
      obtain ⟨hentry, -⟩ := h.known (h.tidy.genuine.issued_of_lookup hf) hconstructor hr
      rw [hsame, f.entry_preparedTypes, FunctionNode.needsSettling, if_pos heligible] at hentry
      rw [hentry] at hwaits
      cases hwaits
    · rw [hsettled] at hwaits
      cases hwaits
  · rintro ⟨hdeferred, hunread⟩
    rcases h.touched.entry function with hsame | ⟨f, hread, rfl, hneeds, -⟩
    · rw [hsame]
      exact hdeferred
    · have hf := h.tidy.genuine.lookup_function hread.1
      obtain ⟨-, rfl, rfl⟩ := h.tidy.genuine.function_shown hf hsymbol hdetails
      obtain ⟨r, hr⟩ := hread.2 hconstructor
      exact absurd ⟨hneeds, f, r, hf, hr⟩ hunread

end Accounted

/-- Whatever was read before, and in whatever order, the return type of a function that is no constructor
is the one that was deferred for it, if there is one and the function is a platform method that has to be
settled, and otherwise the one that was on record from the beginning. Reading it changes nothing
about other functions. It waits to be settled until it is read, and reading it then succeeds. -/
theorem interop_returnType (htypes : world.Admits types) (hs : world.Undisturbed types s)
    {symbol : SymbolRecord} {details : FunctionDetails}
    (hsymbol : world.table.symbols[function.index]? = some symbol)
    (hdetails : symbol.details = .function details) (hconstructor : details.isConstructor = false)
    (hcontainer : symbol.container = some owner) :
    let eligible := world.config.interopReturnTypeWorkaround && symbol.origin.isInterop &&
      details.isInteropMethod
    (∀ {f}, s.caches.lookup (.node .function) function = some f →
      (∀ {r t}, f.returnType world.session s = .ok r t → t.HasReturnType function ∧
        some r.type = if eligible then world.settledType function
          else world.table.returnTypes.known[function]?) ∧
      (∀ other, other ≠ function →
        (f.returnType.after world.session s).oracle.entry other = s.oracle.entry other) ∧
      (eligible = true → SymbolTable.hasDeferredReturnType types function = true →
        f.returnType.Succeeds world.session s)) ∧
    (SymbolTable.hasDeferredReturnType s.oracle function = true ↔
      SymbolTable.hasDeferredReturnType types function = true ∧
        ¬(eligible = true ∧ s.HasReturnType function)) := by
  intro eligible
  have h : Accounted world types s := hs.accounted
  refine ⟨fun {f} hf => ?_, h.hasDeferredReturnType_iff hsymbol hdetails hconstructor⟩
  have hissued := h.tidy.genuine.issued_of_lookup hf
  have hsettles := World.settles_iff hsymbol hdetails
  obtain ⟨rfl, rfl, rfl⟩ := h.tidy.genuine.function_shown hf hsymbol hdetails
  refine ⟨fun {r t} hrun => ?_, fun other hother => ?_, fun heligible hdeferred => ?_⟩
  · obtain ⟨hread, htype⟩ := h.returnType_eq hissued hconstructor hrun
    refine ⟨hread, ?_⟩
    rw [htype, f.entry_preparedTypes, FunctionNode.needsSettling]
    by_cases heligible : eligible = true
    · rw [if_pos heligible, if_pos heligible, htypes.settledEntry_eq]
    · rw [if_neg heligible, if_neg heligible]
      exact htypes.known_of_not_settles (mt hsettles.mp heligible)
  · rcases (f.returnType_touches s).entry other with hsame | ⟨g, rfl, hkey, -⟩
    · exact hsame
    · exact absurd hkey.symm hother
  · exact h.returnType_succeeds hissued hconstructor hcontainer heligible hdeferred

/-- A table with a class and two platform methods in it, the return types of which wait to be settled. -/
def SymbolTable.deferringMethods : SymbolTable where
  symbols := #[
    { name := some "A", details := .classLike { members := [⟨1⟩, ⟨2⟩] } },
    { name := some "f", details := .function { isInteropMethod := true },
      provenance := .interopLibrary, container := some ⟨0⟩ },
    { name := some "g", details := .function { isInteropMethod := true },
      provenance := .interopLibrary, container := some ⟨0⟩ }]
  types := #[.ofClass "Raw", .ofClass "Settled"]
  returnTypes :=
    { known := (({} : Std.TreeMap SymbolKey TypeKey).insert ⟨1⟩ ⟨0⟩).insert ⟨2⟩ ⟨0⟩
      deferred := (({} : Std.TreeMap SymbolKey TypeKey).insert ⟨1⟩ ⟨1⟩).insert ⟨2⟩ ⟨1⟩ }

/-- The children of the first method have its return type among them, so it does not wait any more, while
the second one does. -/
theorem interop_returnType_deferringMethods :
    let world : World := { table := .deferringMethods }
    let start : SessionState ReturnTypes := .start world.table.returnTypes
    let s := (Query.function ⟨1⟩ : Query ReturnTypes _).after world.session start
    let t := ((Operation.read (⟨0⟩ : FunctionId) .children).query : Query ReturnTypes _).after
      world.session s
    SymbolTable.hasDeferredReturnType t.oracle ⟨1⟩ = false ∧
      SymbolTable.hasDeferredReturnType t.oracle ⟨2⟩ = true ∧
      ∃ (f : FunctionNode) (r : TypeReference) (u : SessionState ReturnTypes),
        f.returnType world.session t = .ok r u ∧ r.type = ⟨1⟩ := by
  intro world start s t
  have htypes : world.Admits start.oracle := (Sound.start world).settled
  have ht : world.Undisturbed start.oracle t :=
    .operate (.read (⟨0⟩ : FunctionId) .children) (.operate (.wrap (.function ⟨1⟩)) .start)
  have hgrows : s.Grows t :=
    ((Operation.read (⟨0⟩ : FunctionId) .children).query_steps world.session s).grows
  have hfound : t.caches.lookup (.node .function) ⟨1⟩ = some _ := hgrows.caches.lookup rfl
  have hread : (t.memo.get? ((⟨0⟩ : FunctionId).cell .returnType)).isSome = true := by
    decide +kernel
  obtain ⟨cell, hcell⟩ := Option.isSome_iff_exists.mp hread
  have hsymbol : world.table.symbols[(⟨1⟩ : SymbolKey).index]? = some _ := rfl
  obtain ⟨hreads, hwaits⟩ := interop_returnType htypes ht hsymbol rfl rfl rfl
  obtain ⟨htype, -, hsucceeds⟩ := hreads hfound
  obtain ⟨r, u, hrun⟩ := hsucceeds rfl rfl
  refine ⟨?_, by decide +kernel, _, r, u, hrun, Option.some.inj (htype hrun).2⟩
  rw [Bool.eq_false_iff]
  exact fun hdeferred => (hwaits.mp hdeferred).2 ⟨rfl, _, _, hfound, hcell⟩

end SymbolGraph
