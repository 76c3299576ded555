import SymbolGraph.Proofs.Meaning.Field
import SymbolGraph.Proofs.Oracle.Closed
import SymbolGraph.Proofs.Tidy.Yields

/-!
# Entities with an answer to everything

In a table that answers its own questions, every node that is found from a file has all its children. It
is not enough that the node is one of the world: a reference to a type that is not known can be wrapped,
but it has no children. What is needed is kept from every node to its children.
-/

namespace SymbolGraph

variable {α β : Type} {world : World} {kind : NodeKind}

/-! ## Answers that are there -/

/-- There is an answer, and it is as it should be. -/
def Meaning.Gives (m : Meaning α) (P : α → Prop) : Prop := ∃ a, m = .ok a ∧ P a

namespace Meaning.Gives

variable {m : Meaning α} {P : α → Prop} {Q : β → Prop}

theorem pure {a : α} (h : P a) : Gives (Pure.pure a) P := ⟨a, rfl, h⟩

theorem bind {f : α → Meaning β} (h : m.Gives P) (hf : ∀ a, P a → (f a).Gives Q) :
    (m >>= f).Gives Q := by
  obtain ⟨a, rfl, ha⟩ := h
  exact hf a ha

theorem nil : Gives (Pure.pure [] : Meaning (List α)) fun as => ∀ a ∈ as, P a := .pure (by simp)

theorem cons {rest : Meaning (List α)} (h : m.Gives P) (hrest : rest.Gives fun as => ∀ a ∈ as, P a) :
    (do return (← m) :: (← rest)).Gives fun as => ∀ a ∈ as, P a :=
  h.bind fun _ ha => hrest.bind fun _ has => .pure (List.forall_mem_cons.mpr ⟨ha, has⟩)

theorem mapM {κ : Type} {f : κ → Meaning α} {keys : List κ} (h : ∀ key ∈ keys, (f key).Gives P) :
    (keys.mapM f).Gives fun as => ∀ a ∈ as, P a := by
  induction keys with
  | nil => exact .nil
  | cons key keys ih =>
    rw [List.mapM_cons]
    obtain ⟨hfirst, hrest⟩ := List.forall_mem_cons.mp h
    exact .cons hfirst (ih hrest)

theorem none : Gives (Pure.pure none : Meaning (Option α)) fun a? => ∀ a ∈ a?.toList, P a :=
  .pure (by simp)

theorem some (h : m.Gives P) : (do return some (← m)).Gives fun a? => ∀ a ∈ a?.toList, P a :=
  h.bind fun _ ha => .pure (by simpa using ha)

end Meaning.Gives

/-! ## Apt nodes -/

/-- The type that a reference is to. -/
def Entity.type? : {kind : Kind} → Entity kind → Option TypeKey
  | _, .typeReference type _ _ | _, .looseReference type _ => some type
  | _, _ => none

/-- A node that is one of the world, like everything above it, and refers to a known type if it refers to
one. -/
inductive NodeEntity.Apt (world : World) : NodeEntity → Prop
  | intro {kind : NodeKind} {e : Entity (.node kind)} : (∃ w, e.portrait world = .ok w) →
    (∀ type ∈ e.type?, type.index < world.table.types.size) → (∀ n ∈ e.above, Apt world n) →
    Apt world e.node

namespace NodeEntity.Apt

theorem portrait {e : Entity (.node kind)} (h : e.node.Apt world) :
    ∃ w, e.portrait world = .ok w := by
  cases h with | intro hportrait => exact hportrait

theorem type {e : Entity (.node kind)} (h : e.node.Apt world) {type : TypeKey}
    (htype : e.type? = some type) : type.index < world.table.types.size := by
  cases h with | intro _ hknown => exact hknown type htype

theorem above {e : Entity (.node kind)} (h : e.node.Apt world) {n : NodeEntity}
    (hn : e.above = some n) : n.Apt world := by
  cases h with | intro _ _ habove => exact habove n hn

end NodeEntity.Apt

namespace World

/-- What the table knows is an answer. -/
theorem inquire_of_told {i : Inquiry α} {a : α} (h : i.Told world.table a) :
    world.inquire i = .ok a := by
  cases i <;> simp only [Inquiry.Told] at h <;>
    simp [inquire, peek, Inquiry.put, SymbolTable.oracle, SymbolTable.answer, h] <;> rfl

theorem told_of_inquire {i : Inquiry α} {a : α} (h : world.inquire i = .ok a) :
    i.Told world.table a := by
  have hput : i.put world.session.oracle world.table.returnTypes = (world.peek i, _) :=
    put_inquiry i world.table.returnTypes
  rw [inquire] at h
  cases hpeek : world.peek i with
  | error e =>
    rw [hpeek] at h
    cases h
  | ok b =>
    rw [hpeek] at h hput
    cases h
    exact Inquiry.told hput

theorem wrap_gives {e : Entity (.node kind)} (h : e.node.Apt world) :
    (world.wrap e).Gives fun e => e.node.Apt world := by
  obtain ⟨w, hw⟩ := h.portrait
  exact ⟨e, by simp [wrap, hw], h⟩

end World

/-! ## What portraits are made from -/

namespace Entity

/-- The key of an entity without the numbers in it. -/
def blankKey : {kind : Kind} → Entity kind → kind.Key
  | _, .file key => key
  | _, .classLike key | _, .function key | _, .property key | _, .typeParameter key => key
  | _, .getter _ key | _, .setter _ key => { receiver := ⟨0⟩, symbol := key }
  | _, @valueParameter key kind _ => { symbol := key, parent := ⟨kind, 0⟩ }
  | _, @typeReference type kind _ index => { type, parent := some ⟨kind, 0⟩, index }
  | _, .looseReference type index => { type, parent := none, index }
  | _, .classifierReference type _ | _, .callableReference type _ => { type, owner := ⟨0⟩ }
  | _, .dynamicReference _ => (⟨0⟩ : TypeReferenceId)
  | _, @annotationUse key kind _ => { key, parent := some ⟨kind, 0⟩ }
  | _, .looseAnnotationUse key => { key, parent := none }
  | _, .valueArgument _ source => { owner := ⟨0⟩, source }
  | _, .resolvedType key => key

/-- A portrait is made from what the table has under the key of the entity. -/
theorem made {kind : Kind} {e : Entity kind} {w : kind.Wrapper} (h : e.portrait world = .ok w) :
    Made world.table kind e.blankKey w := by
  cases e with
  | file key =>
    obtain ⟨file, hfile, h⟩ := Meaning.bind_eq_ok h
    cases h
    exact .file _ (World.told_of_inquire hfile)
  | classLike key | function key | property key | typeParameter key | getter _ key | setter _ key
  | valueParameter key =>
    obtain ⟨symbol, hsymbol, h⟩ := Meaning.bind_eq_ok h
    have hsymbol := World.told_of_inquire hsymbol
    cases hdetails : symbol.details <;> simp only [hdetails] at h <;> cases h
    constructor <;> assumption
  | typeReference type parent index =>
    obtain ⟨_, _, h⟩ := Meaning.bind_eq_ok h
    cases h
    exact .typeReference ..
  | looseReference type index =>
    cases h
    exact .typeReference ..
  | classifierReference type owner | callableReference type owner =>
    obtain ⟨reference, _, h⟩ := Meaning.bind_eq_ok h
    obtain ⟨record, hrecord, h⟩ := Meaning.bind_eq_ok h
    have hrecord := World.told_of_inquire hrecord
    cases hshape : record.shape <;> simp only [hshape] at h <;> cases h
    constructor <;> assumption
  | dynamicReference owner =>
    obtain ⟨_, _, h⟩ := Meaning.bind_eq_ok h
    cases h
    exact .dynamicReference ..
  | annotationUse key bearer | looseAnnotationUse key =>
    obtain ⟨record, hrecord, h⟩ := Meaning.bind_eq_ok h
    cases h
    exact .annotationUse _ _ (World.told_of_inquire hrecord)
  | valueArgument owner source =>
    cases source with
    | written position =>
      obtain ⟨owner, _, h⟩ := Meaning.bind_eq_ok h
      split at h <;> cases h
      exact .valueArgument ..
    | default key =>
      obtain ⟨parameter, _, h⟩ := Meaning.bind_eq_ok h
      obtain ⟨value, _, h⟩ := Meaning.bind_eq_ok h
      split at h <;> cases h
      exact .valueArgument ..
  | resolvedType key =>
    obtain ⟨type, htype, h⟩ := Meaning.bind_eq_ok h
    cases h
    exact .resolvedType _ (World.told_of_inquire htype)

theorem type?_of_portrait {e : Entity (.node .typeReference)} {w : TypeReference}
    (h : e.portrait world = .ok w) : e.type? = some w.type := by
  cases e <;> cases made h <;> rfl

end Entity

/-! ## Nodes that are apt -/

namespace Entity

/-- The symbol that an entity is of. -/
def symbol? : {kind : Kind} → Entity kind → Option SymbolKey
  | _, .classLike key | _, .function key | _, .property key | _, .typeParameter key
  | _, .getter _ key | _, .setter _ key | _, .valueParameter key _ => some key
  | _, _ => none

theorem apt_file {key : FileKey} {file : FileRecord}
    (h : world.table.files[key.index]? = some file) : (Entity.file key).node.Apt world := by
  have hfile : world.inquire (.file key) = .ok file := World.inquire_of_told (i := .file key) h
  exact .intro ⟨_, by simp [portrait, hfile]; rfl⟩ (by simp [type?]) (by simp [above])

/-- A symbol of the right kind is an apt node under an apt one. -/
theorem apt_symbol {e : Entity (.node kind)} {key : SymbolKey} (hkey : e.symbol? = some key)
    (hsort : world.table.sort? key = some kind) (habove : ∀ n ∈ e.above, n.Apt world) :
    e.node.Apt world := by
  obtain ⟨symbol, hsymbol, hsort⟩ := SymbolTable.sort?_eq_some hsort
  have hinquire : world.inquire (.symbol key) = .ok symbol :=
    World.inquire_of_told (i := .symbol key) hsymbol
  cases e <;> cases hkey <;> refine .intro ?_ (by simp [type?]) habove <;>
    cases hdetails : symbol.details <;> rw [hdetails] at hsort <;> cases hsort <;>
    exact ⟨_, by simp [portrait, hinquire, hdetails]; rfl⟩

theorem apt_annotationUse {key : AnnotationKey} (hkey : key.index < world.table.annotations.size)
    {bearer : Entity (.node kind)} (h : bearer.node.Apt world) :
    (Entity.annotationUse key bearer).node.Apt world := by
  have hrecord : world.inquire (.annotationUse key) = .ok world.table.annotations[key.index] :=
    World.inquire_of_told (i := .annotationUse key) (Array.getElem?_eq_getElem hkey)
  exact .intro ⟨_, by simp [portrait, hrecord]; rfl⟩ (by simp [type?]) (by simp [above, h])

theorem apt_typeReference {type : TypeKey} (htype : type.index < world.table.types.size)
    {parent : Entity (.node kind)} (h : parent.node.Apt world) (index : Int) :
    (Entity.typeReference type parent index).node.Apt world := by
  obtain ⟨w, hw⟩ := h.portrait
  exact .intro ⟨_, by simp [portrait, hw]; rfl⟩ (by simp [type?, htype]) (by simp [above, h])

section

variable {owner : Entity (.node .typeReference)} {type : TypeKey} {record : TypeRecord}

theorem apt_classifierReference (h : owner.node.Apt world)
    (hrecord : world.table.types[type.index]? = some record)
    (hshape : record.shape.isClassType = true) :
    (Entity.classifierReference type owner).node.Apt world := by
  obtain ⟨w, hw⟩ := h.portrait
  have hinquire : world.inquire (.type type) = .ok record :=
    World.inquire_of_told (i := .type type) hrecord
  refine .intro ?_ (by simp [type?]) (by simp [above, h])
  cases hclass : record.shape <;> rw [hclass] at hshape <;> cases hshape
  exact ⟨_, by simp [portrait, hw, hinquire, hclass]; rfl⟩

theorem apt_callableReference (h : owner.node.Apt world)
    (hrecord : world.table.types[type.index]? = some record) {shape : FunctionalType}
    (hshape : record.shape = .functional shape) :
    (Entity.callableReference type owner).node.Apt world := by
  obtain ⟨w, hw⟩ := h.portrait
  have hinquire : world.inquire (.type type) = .ok record :=
    World.inquire_of_told (i := .type type) hrecord
  exact .intro ⟨_, by simp [portrait, hw, hinquire, hshape]; rfl⟩ (by simp [type?])
    (by simp [above, h])

theorem apt_dynamicReference (h : owner.node.Apt world) :
    (Entity.dynamicReference owner).node.Apt world := by
  obtain ⟨w, hw⟩ := h.portrait
  exact .intro ⟨_, by simp [portrait, hw]; rfl⟩ (by simp [type?]) (by simp [above, h])

end

section

variable {owner : Entity (.node .annotationUse)}

theorem apt_written (h : owner.node.Apt world) {w : AnnotationNode}
    (hw : owner.portrait world = .ok w) {position : Nat}
    (hposition : position < w.record.arguments.length) :
    (Entity.valueArgument owner (.written position)).node.Apt world := by
  exact .intro ⟨_, by simp [portrait, hw, hposition]; rfl⟩ (by simp [type?]) (by simp [above, h])

theorem apt_default (h : owner.node.Apt world) {key : SymbolKey} {parameter : SymbolRecord}
    (hparameter : world.table.symbols[key.index]? = some parameter) {name : String}
    (hname : parameter.name = some name) {value : Constant}
    (hvalue : world.defaultValue parameter = .ok (some value)) :
    (Entity.valueArgument owner (.default key)).node.Apt world := by
  have hinquire : world.inquire (.symbol key) = .ok parameter :=
    World.inquire_of_told (i := .symbol key) hparameter
  exact .intro ⟨_, by simp [portrait, hinquire, hname, hvalue]; rfl⟩ (by simp [type?])
    (by simp [above, h])

end

end Entity

end SymbolGraph
