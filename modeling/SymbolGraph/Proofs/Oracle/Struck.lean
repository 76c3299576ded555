import SymbolGraph.Oracle.Table
import SymbolGraph.Proofs.Session.Regular

/-!
# Struck oracles

A front end of which any chosen questions are refused, by the order in which they are asked.
A question that is refused does not reach the front end behind. In front of a symbol table,
all that a question can change is which return types are settled.
-/

namespace SymbolGraph

variable {σ α : Type}

/-- Which of the questions to come are refused; the others are passed on. -/
structure Struck (σ : Type) where
  inner : σ
  plan : List (Option OracleError) := []

namespace Struck

/-- Passes on a question that cannot be refused. -/
def pass (question : StateM σ α) : StateM (Struck σ) α := fun d =>
  let (a, inner) := question d.inner
  (a, { d with inner })

/-- Refuses a question if it is its turn. -/
def refuse (question : Answer σ α) : Answer (Struck σ) α := fun d =>
  match d.plan with
  | some e :: plan => (.error e, { d with plan })
  | _ =>
    let (a, inner) := question d.inner
    (a, { inner, plan := d.plan.tail })

theorem refuse_cases (question : Answer σ α) (d : Struck σ) :
    (∃ e plan, refuse question d = (.error e, { d with plan })) ∨
      refuse question d =
        ((question d.inner).1, { inner := (question d.inner).2, plan := d.plan.tail }) := by
  rw [refuse]
  split
  · exact .inl ⟨_, _, rfl⟩
  · exact .inr rfl

end Struck

/-- The front end of which questions are refused. -/
def Oracle.struck (o : Oracle σ) : Oracle (Struck σ) where
  newFiles := Struck.pass o.newFiles
  file key := Struck.refuse (o.file key)
  declarationsInPackage package := Struck.pass (o.declarationsInPackage package)
  classByName name := Struck.pass (o.classByName name)
  symbol key := Struck.refuse (o.symbol key)
  annotationUse key := Struck.refuse (o.annotationUse key)
  type key := Struck.refuse (o.type key)
  classifier key := Struck.pass (o.classifier key)
  classType key := Struck.refuse (o.classType key)
  starProjectedType key := Struck.refuse (o.starProjectedType key)
  returnType function := Struck.refuse (o.returnType function)
  resolveInteropReturnType function owner := Struck.refuse (o.resolveInteropReturnType function owner)
  evaluateConstant key := Struck.pass (o.evaluateConstant key)
  lineCol file offset := Struck.pass (o.lineCol file offset)
  nesting := o.nesting

theorem Inquiry.put_struck (i : Inquiry α) (o : Oracle σ) : i.put o.struck = Struck.refuse (i.put o) := by
  cases i <;> rfl

theorem Glance.put_struck (g : Glance α) (o : Oracle σ) : g.put o.struck = Struck.pass (g.put o) := by
  cases g <;> rfl

/-! ## States without faults to come -/

namespace SessionState

/-- The same state with no more questions to be refused. -/
def calm (s : SessionState (Struck σ)) : SessionState (Struck σ) :=
  { s with oracle := { inner := s.oracle.inner } }

variable (s : SessionState (Struck σ))

@[simp] theorem calm_caches : s.calm.caches = s.caches := rfl

@[simp] theorem calm_memo : s.calm.memo = s.memo := rfl

theorem calm_fill (cell : Cell) (v : cell.Value) :
    s.calm.fill cell v = ((s.fill cell v).1, (s.fill cell v).2.calm) := by
  rw [fill, fill, calm_memo]
  cases s.memo.get? cell <;> rfl

end SessionState

/-- A question is refused, or it reaches the front end behind. -/
theorem Struck.request_cases {session : Session (Struck σ)}
    (question : Oracle (Struck σ) → Answer (Struck σ) α) {asked : Answer σ α}
    (h : question session.oracle = refuse asked) (s : SessionState (Struck σ)) :
    (∃ e plan, Query.request question session s =
      .error (.oracle e) { s with oracle := { s.oracle with plan } }) ∨
    ∃ plan, Query.request question session s = match asked s.oracle.inner with
      | (.ok a, inner) => .ok a { s with oracle := { inner, plan } }
      | (.error e, inner) => .error (.oracle e) { s with oracle := { inner, plan } } := by
  rw [Query.request_apply, h]
  rcases refuse_cases asked s.oracle with ⟨e, plan, hrefused⟩ | hasked
  · rw [hrefused]
    exact .inl ⟨e, plan, rfl⟩
  · rw [hasked]
    refine .inr ⟨s.oracle.plan.tail, ?_⟩
    rcases asked s.oracle.inner with ⟨_ | _, _⟩ <;> rfl

/-- Without faults to come, every question reaches the front end behind. -/
theorem Struck.request_calm {session : Session (Struck σ)}
    (question : Oracle (Struck σ) → Answer (Struck σ) α) {asked : Answer σ α}
    (h : question session.oracle = refuse asked) (s : SessionState (Struck σ)) :
    Query.request question session s.calm = match asked s.oracle.inner with
      | (.ok a, inner) => .ok a { s with oracle := { inner } }
      | (.error e, inner) => .error (.oracle e) { s with oracle := { inner } } := by
  have hasked : refuse asked s.calm.oracle =
      ((asked s.oracle.inner).1, { inner := (asked s.oracle.inner).2 }) := rfl
  rw [Query.request_apply, h, hasked]
  rcases asked s.oracle.inner with ⟨_ | _, _⟩ <;> rfl

/-! ## Tables -/

/-- Most of what a table answers never changes, and asking for it changes nothing. -/
theorem Inquiry.put_table (i : Inquiry α) (table : SymbolTable) :
    ∃ answer, ∀ types, i.put table.oracle types = (answer, types) := by
  cases i <;> exact ⟨_, fun _ => rfl⟩

theorem Glance.put_table (g : Glance α) (table : SymbolTable) :
    ∃ answer, ∀ types, g.put table.oracle types = (answer, types) := by
  cases g <;> exact ⟨_, fun _ => rfl⟩

theorem ReturnTypes.settle_settle (types : ReturnTypes) (function : SymbolKey) :
    (types.settle function).settle function = types.settle function := by
  cases h : types.deferred[function]? with
  | none =>
    have hnone : types.settle function = types := by
      simp only [settle, h]
    rw [hnone, hnone]
  | some type =>
    have hsome : types.settle function =
        { known := types.known.insert function type, deferred := types.deferred.erase function } := by
      simp only [settle, h]
    rw [hsome]
    simp [settle]

/-- Whether a return type can be settled at all is for the table to say, and does not change. -/
theorem SymbolTable.resolveInteropReturnType_cases (table : SymbolTable)
    (function owner : SymbolKey) :
    (∃ e, ∀ types, table.resolveInteropReturnType function owner types = (.error e, types)) ∨
    ∀ types, table.resolveInteropReturnType function owner types =
      (.ok (), types.settle function) := by
  cases hsymbol : table.symbols[function.index]? with
  | none =>
    refine .inl ⟨.unknownSymbol function, fun types => ?_⟩
    simp only [resolveInteropReturnType, hsymbol]
  | some symbol =>
    by_cases howner : symbol.container = some owner
    · refine .inr fun types => ?_
      simp only [resolveInteropReturnType, hsymbol, howner, if_true]
    · refine .inl ⟨.other s!"{function.text} is not declared in {owner.text}", fun types => ?_⟩
      simp only [resolveInteropReturnType, hsymbol, howner, if_false]

end SymbolGraph
