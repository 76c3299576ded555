import SymbolGraph.Oracle.Table
import SymbolGraph.Proofs.Meaning.Entity
import SymbolGraph.Proofs.Session.Regular

/-!
# Worlds

What a session over a table is about. The table says what the wrapper of an entity holds,
apart from the handles in it; no session is needed for that.
-/

namespace SymbolGraph

variable {α β : Type} {kind : Kind}

/-! ## Failures -/

/-- Why a question has no answer, told without handles. -/
inductive Failure
  | plain (error : GraphError)
  /-- The setter of a property has no parameter. -/
  | noParameter (property : SymbolKey)
  /-- A constructor lies in something that is no class, or in nothing. -/
  | noClass (context : String) (parent : Option NodeEntity)
  /-- The entity is not one of this world. -/
  | nothing

/-- The answer to a question, told without handles. -/
abbrev Meaning := Except Failure

@[simp] theorem Meaning.ok_bind (a : α) (f : α → Meaning β) :
    ((Except.ok a : Meaning α) >>= f) = f a := rfl

@[simp] theorem Meaning.error_bind (e : Failure) (f : α → Meaning β) :
    ((Except.error e : Meaning α) >>= f) = .error e := rfl

theorem Meaning.bind_eq_ok {m : Meaning α} {f : α → Meaning β} {b : β} (h : m >>= f = .ok b) :
    ∃ a, m = .ok a ∧ f a = .ok b := by
  cases m with
  | error e => cases h
  | ok a => exact ⟨a, rfl, h⟩

/-- Every item of a list of answers is an answer. -/
theorem Meaning.of_mem_mapM {f : α → Meaning β} {as : List α} {bs : List β}
    (h : as.mapM f = .ok bs) {b : β} (hb : b ∈ bs) : ∃ a, f a = .ok b := by
  induction as generalizing bs with
  | nil =>
    cases h
    cases hb
  | cons a as ih =>
    rw [List.mapM_cons] at h
    obtain ⟨first, hfirst, h⟩ := bind_eq_ok h
    obtain ⟨rest, hrest, h⟩ := bind_eq_ok h
    cases h
    cases hb with
    | head => exact ⟨a, hfirst⟩
    | tail _ hb => exact ih hrest hb

structure World where
  table : SymbolTable
  config : Config := {}

namespace World

variable (world : World)

def session : Session ReturnTypes := { oracle := world.table.oracle, config := world.config }

/-- The answer of the table to a question about what does not change. -/
def peek (i : Inquiry α) : Except OracleError α :=
  (i.put world.table.oracle world.table.returnTypes).1

def inquire (i : Inquiry α) : Meaning α := (world.peek i).mapError fun e => .plain (.oracle e)

theorem symbols_of_inquire {world : World} {key : SymbolKey} {symbol : SymbolRecord}
    (h : world.inquire (.symbol key) = .ok symbol) :
    world.table.symbols[key.index]? = some symbol := by
  have hpeek : world.peek (.symbol key) = world.table.symbols[key.index]?.elim
      (.error (.unknownSymbol key)) .ok := rfl
  rw [inquire, hpeek] at h
  cases hsymbol : world.table.symbols[key.index]? with
  | none =>
    rw [hsymbol] at h
    cases h
  | some symbol =>
    rw [hsymbol] at h
    cases h
    rfl

def glance (g : Glance α) : α := (g.put world.table.oracle world.table.returnTypes).1

/-- The constant that a parameter has by default. -/
def defaultValue (parameter : SymbolRecord) : Meaning (Option Constant) :=
  match parameter.source with
  | none => return none
  | some source =>
    match source.form with
    | .native =>
      match source.defaultValue with
      | none => return none
      | some expression => return world.glance (.evaluateConstant expression)
    | other =>
      throw (.plain (.inconsistency s!"default value of parameter `{parameter.displayName}`"
        "native parameter syntax" other.text))

end World

/-! ## Portraits -/

def NodeId.blank (node : NodeId) : NodeId := ⟨node.kind, 0⟩

/-- A wrapper without the numbers in its handles. -/
def Kind.blank : (kind : Kind) → kind.Wrapper → kind.Wrapper
  | .node .file, (w : FileNode) => { w with id := ⟨0⟩ }
  | .node .classLike, (w : ClassNode) => { w with id := ⟨0⟩ }
  | .node .function, (w : FunctionNode) => { w with id := ⟨0⟩ }
  | .node .property, (w : PropertyNode) => { w with id := ⟨0⟩ }
  | .node .getter, (w : GetterNode) => { w with id := ⟨0⟩, receiver := ⟨0⟩ }
  | .node .setter, (w : SetterNode) => { w with id := ⟨0⟩, receiver := ⟨0⟩ }
  | .node .valueParameter, (w : ValueParameterNode) =>
    { w with id := ⟨0⟩, parent := w.parent.blank }
  | .node .typeParameter, (w : TypeParameterNode) => { w with id := ⟨0⟩ }
  | .node .typeReference, (w : TypeReference) =>
    { w with id := ⟨0⟩, parent := w.parent.map NodeId.blank }
  | .node .classifierReference, (w : ClassifierReference) => { w with id := ⟨0⟩, owner := ⟨0⟩ }
  | .node .callableReference, (w : CallableReference) => { w with id := ⟨0⟩, owner := ⟨0⟩ }
  | .node .dynamicReference, (w : DynamicReference) => { w with id := ⟨0⟩, owner := ⟨0⟩ }
  | .node .annotationUse, (w : AnnotationNode) =>
    { w with id := ⟨0⟩, parent := w.parent.map NodeId.blank }
  | .node .valueArgument, (w : ArgumentNode) => { w with id := ⟨0⟩, owner := ⟨0⟩ }
  | .resolvedType, (w : ResolvedType) => { w with id := ⟨0⟩ }

theorem NodeKind.origin_blank (kind : NodeKind) (w : kind.Wrapper) :
    kind.origin ((Kind.node kind).blank w) = kind.origin w := by
  cases kind <;> rfl

/-- What the wrapper of an entity holds, without the numbers in its handles. -/
def Entity.portrait (world : World) : {kind : Kind} → Entity kind → Meaning kind.Wrapper
  | _, .file key => do
    let file ← world.inquire (.file key)
    return { id := ⟨0⟩, key, file }
  | _, .classLike key => do
    let symbol ← world.inquire (.symbol key)
    match symbol.details with
    | .classLike details => return { id := ⟨0⟩, key, symbol, details }
    | _ => throw (.plain (.unexpectedSymbol symbol "class"))
  | _, .function key => do
    let symbol ← world.inquire (.symbol key)
    match symbol.details with
    | .function details => return { id := ⟨0⟩, key, symbol, details }
    | _ => throw (.plain (.unexpectedSymbol symbol "function"))
  | _, .property key => do
    let symbol ← world.inquire (.symbol key)
    match symbol.details with
    | .property details => return { id := ⟨0⟩, key, symbol, details }
    | _ => throw (.plain (.unexpectedSymbol symbol "property"))
  | _, .typeParameter key => do
    let symbol ← world.inquire (.symbol key)
    match symbol.details with
    | .typeParameter details => return { id := ⟨0⟩, key, symbol, details }
    | _ => throw (.plain (.unexpectedSymbol symbol "type parameter"))
  | _, .getter _ key => do
    let symbol ← world.inquire (.symbol key)
    match symbol.details with
    | .getter returnTypeKey => return { id := ⟨0⟩, key, symbol, receiver := ⟨0⟩, returnTypeKey }
    | _ => throw (.plain (.unexpectedSymbol symbol "getter"))
  | _, .setter _ key => do
    let symbol ← world.inquire (.symbol key)
    match symbol.details with
    | .setter parameterKey => return { id := ⟨0⟩, key, symbol, receiver := ⟨0⟩, parameterKey }
    | _ => throw (.plain (.unexpectedSymbol symbol "setter"))
  | _, @valueParameter key kind _ => do
    let symbol ← world.inquire (.symbol key)
    match symbol.details with
    | .valueParameter details => return { id := ⟨0⟩, key, symbol, details, parent := ⟨kind, 0⟩ }
    | _ => throw (.plain (.unexpectedSymbol symbol "value parameter"))
  | _, @typeReference type kind parent index => do
    let origin := kind.origin (← parent.portrait world)
    return { id := ⟨0⟩, type, parent := some ⟨kind, 0⟩, index, origin }
  | _, .looseReference type index =>
    return { id := ⟨0⟩, type, parent := none, index, origin := .synthetic }
  | _, .classifierReference key owner => do
    let reference : TypeReference ← owner.portrait world
    let type ← world.inquire (.type key)
    match type.shape with
    | .classType className arguments => return {
        id := ⟨0⟩, type := key, owner := ⟨0⟩, origin := reference.origin, className, arguments }
    | shape => throw (.plain
        (.unexpectedShape s!"classifier reference `{type.rendered}`" "class type" shape))
  | _, .callableReference key owner => do
    let reference : TypeReference ← owner.portrait world
    let type ← world.inquire (.type key)
    match type.shape with
    | .functional shape => return {
        id := ⟨0⟩, type := key, owner := ⟨0⟩, origin := reference.origin, shape }
    | shape => throw (.plain
        (.unexpectedShape s!"callable reference `{type.rendered}`" "functional type" shape))
  | _, .dynamicReference owner => do
    let reference : TypeReference ← owner.portrait world
    return { id := ⟨0⟩, owner := ⟨0⟩, origin := reference.origin }
  | _, @annotationUse key kind _ => do
    let record ← world.inquire (.annotationUse key)
    return { id := ⟨0⟩, key, record, parent := some ⟨kind, 0⟩ }
  | _, .looseAnnotationUse key => do
    let record ← world.inquire (.annotationUse key)
    return { id := ⟨0⟩, key, record, parent := none }
  | _, .valueArgument owner (.written position) => do
    let annotation : AnnotationNode ← owner.portrait world
    match annotation.record.arguments[position]? with
    | some argument => return {
        id := ⟨0⟩, owner := ⟨0⟩, name := argument.name, value := argument.value, origin := .source
        position := annotation.record.position }
    | none => throw .nothing
  | _, .valueArgument _ (.default key) => do
    let parameter ← world.inquire (.symbol key)
    match parameter.name, ← world.defaultValue parameter with
    | some name, some value => return {
        id := ⟨0⟩, owner := ⟨0⟩, name := some name, value := .constant value, origin := .synthetic
        position := none }
    | _, _ => throw .nothing
  | _, .resolvedType key => do
    let type ← world.inquire (.type key)
    return { id := ⟨0⟩, key, type }

/-- The entity, provided that it is one of this world. -/
def World.wrap (world : World) (e : Entity kind) : Meaning (Entity kind) := do
  let _ ← e.portrait world
  return e

theorem World.wrap_eq_ok {world : World} {e e' : Entity kind} (h : world.wrap e = .ok e') :
    e' = e ∧ ∃ p, e.portrait world = .ok p := by
  obtain ⟨p, hp, h⟩ := Meaning.bind_eq_ok h
  cases h
  exact ⟨rfl, p, hp⟩

end SymbolGraph
