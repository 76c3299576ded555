import Mathlib.Tactic.MkIffOfInductiveProp
import SymbolGraph.Proofs.Oracle.Finish
import SymbolGraph.Proofs.Tidy.Fact

/-!
# Tables that answer their own questions

A table refers to things by their keys, and whoever follows them asks the table for these things. In a
well-formed table there is something of the right sort under every key; once such a table is finished, it
also has the types of the classes that annotations and constructors lead to.
-/

namespace SymbolGraph

/-! ## What records refer to -/

namespace SymbolDetails

/-- The types that a symbol is written with. -/
def types : SymbolDetails → List TypeKey
  | classLike c => c.supertypes
  | function f => f.receiverType.toList
  | property p => p.type :: p.receiverType.toList
  | getter returnType => [returnType]
  | setter _ => []
  | valueParameter p => [p.type]
  | typeParameter p => p.bounds

def isConstructor : SymbolDetails → Bool
  | function f => f.isConstructor
  | _ => false

def isInteropMethod : SymbolDetails → Bool
  | function f => f.isInteropMethod
  | _ => false

end SymbolDetails

/-- What may stand in a file, in a class or in a body. -/
def NodeKind.members : List NodeKind := [.classLike, .function, .property]

/-- The symbols in the lists of a symbol, each with the kinds that its list calls for. -/
def SymbolRecord.slots (symbol : SymbolRecord) : List (SymbolKey × List NodeKind) :=
  match symbol.details with
  | .classLike c => c.typeParameters.map (·, [.typeParameter]) ++ c.constructors.map (·, [.function]) ++
    c.members.map (·, NodeKind.members)
  | .function f => f.typeParameters.map (·, [.typeParameter]) ++
    f.valueParameters.map (·, [.valueParameter]) ++
    ((symbol.source.map Source.localDeclarations).getD []).map (·, NodeKind.members)
  | .property p => p.typeParameters.map (·, [.typeParameter]) ++ p.getter.toList.map (·, [.getter]) ++
    p.setter.toList.map (·, [.setter])
  | .setter parameter => parameter.toList.map (·, [.valueParameter])
  | .getter _ | .valueParameter _ | .typeParameter _ => []

def TypeShape.isClassType : TypeShape → Bool
  | classType .. => true
  | _ => false

namespace SymbolTable

variable {table : SymbolTable}

/-- The kind of a symbol, if the table knows it. -/
def sort? (table : SymbolTable) (key : SymbolKey) : Option NodeKind :=
  table.symbols[key.index]?.map fun symbol => symbol.details.sort

/-- The annotations of files, symbols and types. -/
def annotationKeys (table : SymbolTable) : List AnnotationKey :=
  table.files.toList.flatMap (·.annotations) ++ table.symbols.toList.flatMap (·.annotations) ++
    table.types.toList.flatMap (·.annotations)

/-- A reference to a type of this shape has an element, or needs none. -/
def allows (table : SymbolTable) : TypeShape → Bool
  | .flexible lower _ => table.types[lower.index]?.any (·.shape.isClassType)
  | .intersection _ | .definitelyNotNull _ => false
  | _ => true

/-- Every key in a table leads to something of the sort that is called for there. -/
@[mk_iff]
structure WellFormed (table : SymbolTable) : Prop where
  annotations : ∀ key ∈ table.annotationKeys, key.index < table.annotations.size
  types : ∀ symbol ∈ table.symbols, ∀ type ∈ symbol.details.types, type.index < table.types.size
  parts : ∀ type ∈ table.types, ∀ part ∈ type.parts, part.index < table.types.size
  returnTypes : ∀ entry ∈ table.returnTypes.known.toList ++ table.returnTypes.deferred.toList,
    entry.2.index < table.types.size
  declarations : ∀ file ∈ table.files, ∀ key ∈ file.declarations,
    ∃ kind ∈ NodeKind.members, table.sort? key = some kind
  slots : ∀ symbol ∈ table.symbols, ∀ slot ∈ symbol.slots,
    ∃ kind ∈ slot.2, table.sort? slot.1 = some kind
  /-- Only the lower bound of a flexible type is looked into, and it is a class type. -/
  shapes : ∀ type ∈ table.types, table.allows type.shape = true
  setters : ∀ symbol ∈ table.symbols, symbol.details ≠ .setter none
  constructors : ∀ symbol ∈ table.symbols, symbol.details.isConstructor = true →
    ∃ owner ∈ symbol.container, table.sort? owner = some .classLike
  interopMethods : ∀ symbol ∈ table.symbols, symbol.details.isInteropMethod = true →
    symbol.container ≠ none
  /-- Defaults of annotations are looked up in native syntax only. -/
  defaults : ∀ record ∈ table.annotations, ∀ key ∈ table.defaultParameters record,
    ∀ parameter ∈ table.symbols[key.index]?, ∀ source ∈ parameter.source, source.form = .native

instance : Decidable table.WellFormed := decidable_of_iff' _ (wellFormed_iff table)

namespace WellFormed

theorem mem_annotationKeys {a : AnnotationKey} : a ∈ table.annotationKeys ↔
    (∃ file ∈ table.files, a ∈ file.annotations) ∨ (∃ symbol ∈ table.symbols, a ∈ symbol.annotations) ∨
      ∃ type ∈ table.types, a ∈ type.annotations := by
  simp [annotationKeys]

theorem annotations_of_file (h : table.WellFormed) {key : FileKey} {file : FileRecord}
    (hfile : table.files[key.index]? = some file) {a : AnnotationKey} (ha : a ∈ file.annotations) :
    a.index < table.annotations.size :=
  h.annotations a (mem_annotationKeys.mpr (.inl ⟨file, Array.mem_of_getElem? hfile, ha⟩))

theorem annotations_of_type (h : table.WellFormed) {key : TypeKey} {type : TypeRecord}
    (htype : table.types[key.index]? = some type) {a : AnnotationKey} (ha : a ∈ type.annotations) :
    a.index < table.annotations.size :=
  h.annotations a (mem_annotationKeys.mpr (.inr (.inr ⟨type, Array.mem_of_getElem? htype, ha⟩)))

section

variable {key : SymbolKey} {symbol : SymbolRecord}

theorem annotations_of_symbol (h : table.WellFormed) (hsymbol : table.symbols[key.index]? = some symbol)
    {a : AnnotationKey} (ha : a ∈ symbol.annotations) : a.index < table.annotations.size :=
  h.annotations a (mem_annotationKeys.mpr (.inr (.inl ⟨symbol, Array.mem_of_getElem? hsymbol, ha⟩)))

theorem type_lt (h : table.WellFormed) (hsymbol : table.symbols[key.index]? = some symbol)
    {type : TypeKey} (htype : type ∈ symbol.details.types) : type.index < table.types.size :=
  h.types symbol (Array.mem_of_getElem? hsymbol) type htype

theorem sort?_of_slot (h : table.WellFormed) (hsymbol : table.symbols[key.index]? = some symbol)
    {k : SymbolKey} {kinds : List NodeKind} (hslot : (k, kinds) ∈ symbol.slots) :
    ∃ kind ∈ kinds, table.sort? k = some kind :=
  h.slots symbol (Array.mem_of_getElem? hsymbol) _ hslot

/-- A list may call for one kind only. -/
theorem sort?_of_slot_singleton (h : table.WellFormed)
    (hsymbol : table.symbols[key.index]? = some symbol) {k : SymbolKey} {kind : NodeKind}
    (hslot : (k, [kind]) ∈ symbol.slots) : table.sort? k = some kind := by
  obtain ⟨_, hkind, hsort⟩ := h.sort?_of_slot hsymbol hslot
  rwa [← List.mem_singleton.mp hkind]

end

theorem part_lt (h : table.WellFormed) {type : TypeKey} {record : TypeRecord}
    (hrecord : table.types[type.index]? = some record) {part : TypeKey} (hpart : part ∈ record.parts) :
    part.index < table.types.size :=
  h.parts record (Array.mem_of_getElem? hrecord) part hpart

theorem type_lt_of_known (h : table.WellFormed) {function : SymbolKey} {type : TypeKey}
    (htype : table.returnTypes.known[function]? = some type ∨
      table.returnTypes.deferred[function]? = some type) : type.index < table.types.size := by
  refine h.returnTypes (function, type) (List.mem_append.mpr ?_)
  exact htype.imp Std.TreeMap.mem_toList_iff_getElem?_eq_some.mpr
    Std.TreeMap.mem_toList_iff_getElem?_eq_some.mpr

end WellFormed

/-- A table that has an answer to every question that its own records lead to. -/
structure Closed (table : SymbolTable) : Prop extends table.WellFormed where
  returnType : ∀ {key : SymbolKey}, table.sort? key = some .function →
    ∃ type, table.returnTypes.known[key]? = some type
  classTypes : ∀ {key : SymbolKey} {types : ClassTypes}, table.classTypes[key]? = some types →
    types.own.index < table.types.size ∧ types.star.index < table.types.size
  named : ∀ {name : String} {key : SymbolKey}, table.classesByName[name]? = some key →
    table.sort? key = some .classLike ∧ ∃ types, table.classTypes[key]? = some types
  constructed : ∀ symbol ∈ table.symbols, symbol.details.isConstructor = true →
    ∃ owner types, symbol.container = some owner ∧ table.sort? owner = some .classLike ∧
      table.classTypes[owner]? = some types

section

variable {key : SymbolKey}

theorem sort?_eq_some {kind : NodeKind} (h : table.sort? key = some kind) :
    ∃ symbol, table.symbols[key.index]? = some symbol ∧ symbol.details.sort = kind := by
  simpa [sort?] using h

theorem exists_classLike (h : table.sort? key = some .classLike) :
    ∃ symbol c, table.symbols[key.index]? = some symbol ∧ symbol.details = .classLike c := by
  obtain ⟨symbol, hsymbol, hsort⟩ := sort?_eq_some h
  cases hdetails : symbol.details <;> rw [hdetails] at hsort <;> cases hsort
  exact ⟨symbol, _, hsymbol, hdetails⟩

theorem exists_function (h : table.sort? key = some .function) :
    ∃ symbol f, table.symbols[key.index]? = some symbol ∧ symbol.details = .function f := by
  obtain ⟨symbol, hsymbol, hsort⟩ := sort?_eq_some h
  cases hdetails : symbol.details <;> rw [hdetails] at hsort <;> cases hsort
  exact ⟨symbol, _, hsymbol, hdetails⟩

end

end SymbolTable

namespace Draft

variable {d : Draft}

theorem sort?_of_qualifiedClassName {key : SymbolKey} {name : String}
    (h : qualifiedClassName d.symbols key = some name) : d.finish.sort? key = some .classLike := by
  obtain ⟨_, _, hpath, _⟩ := path_of_qualifiedClassName h
  obtain ⟨symbol, details, hsymbol, hdetails⟩ := hpath.exists_classLike
  have hsymbol : d.finish.symbols[key.index]? = some symbol := hsymbol
  simp [SymbolTable.sort?, hsymbol, hdetails, SymbolDetails.sort]

/-- Finishing a draft gives a table that answers its own questions, if every constructor is one of a
class that has a qualified name. -/
theorem closed (hcontainers : ∀ key, ¬ Relation.TransGen d.ClassIn key key)
    (hwellFormed : d.finish.WellFormed)
    (hnameable : ∀ symbol ∈ d.symbols, symbol.details.isConstructor = true →
      ∀ owner ∈ symbol.container, d.Nameable owner) : d.finish.Closed where
  toWellFormed := hwellFormed
  returnType h := by
    obtain ⟨_, _, hsymbol, hdetails⟩ := SymbolTable.exists_function h
    exact d.exists_returnType hsymbol hdetails
  classTypes h := d.finish_classTypes_known h
  named h := by
    have hname := d.qualifiedClassName_of_classesByName h
    exact ⟨sort?_of_qualifiedClassName hname, d.exists_classTypes hname⟩
  constructed symbol hsymbol hconstructor := by
    obtain ⟨owner, howner, hsort⟩ := hwellFormed.constructors symbol hsymbol hconstructor
    obtain ⟨_, _, hpath⟩ :=
      (hnameable symbol hsymbol hconstructor owner howner).exists_path hcontainers
    obtain ⟨types, htypes⟩ := d.exists_classTypes hpath.qualifiedClassName_eq_some
    exact ⟨owner, types, howner, hsort, htypes⟩

end Draft

end SymbolGraph
