import SymbolGraph.Proofs.Meaning.World
import SymbolGraph.Proofs.Session.Fact

/-!
# Wrappers and the table

A session over a table takes any handle that it is given, also one that it did not issue, and it
wraps keys with such handles in them. Not every wrapper stands for an entity then. But every
wrapper still holds what the table says of its key.
-/

namespace SymbolGraph

variable {table : SymbolTable} {caches later : Caches} {kind : Kind}

/-! ## What wrappers are made of -/

/-- The wrapper holds its key, and what the table says of it. -/
inductive Made (table : SymbolTable) : (kind : Kind) → kind.Key → kind.Wrapper → Prop
  | file {key : FileKey} {file : FileRecord} (id : FileId) :
    table.files[key.index]? = some file →
    Made table (.node .file) key ({ id, key, file } : FileNode)
  | classLike {key : SymbolKey} {symbol : SymbolRecord} {details : ClassDetails} (id : ClassId) :
    table.symbols[key.index]? = some symbol → symbol.details = .classLike details →
    Made table (.node .classLike) key ({ id, key, symbol, details } : ClassNode)
  | function {key : SymbolKey} {symbol : SymbolRecord} {details : FunctionDetails}
    (id : FunctionId) :
    table.symbols[key.index]? = some symbol → symbol.details = .function details →
    Made table (.node .function) key ({ id, key, symbol, details } : FunctionNode)
  | property {key : SymbolKey} {symbol : SymbolRecord} {details : PropertyDetails}
    (id : PropertyId) :
    table.symbols[key.index]? = some symbol → symbol.details = .property details →
    Made table (.node .property) key ({ id, key, symbol, details } : PropertyNode)
  | typeParameter {key : SymbolKey} {symbol : SymbolRecord} {details : TypeParameterDetails}
    (id : TypeParameterId) :
    table.symbols[key.index]? = some symbol → symbol.details = .typeParameter details →
    Made table (.node .typeParameter) key ({ id, key, symbol, details } : TypeParameterNode)
  | getter {receiver : PropertyId} {key : SymbolKey} {symbol : SymbolRecord}
    {returnTypeKey : TypeKey} (id : GetterId) :
    table.symbols[key.index]? = some symbol → symbol.details = .getter returnTypeKey →
    Made table (.node .getter) { receiver, symbol := key }
      ({ id, key, symbol, receiver, returnTypeKey } : GetterNode)
  | setter {receiver : PropertyId} {key : SymbolKey} {symbol : SymbolRecord}
    {parameterKey : Option SymbolKey} (id : SetterId) :
    table.symbols[key.index]? = some symbol → symbol.details = .setter parameterKey →
    Made table (.node .setter) { receiver, symbol := key }
      ({ id, key, symbol, receiver, parameterKey } : SetterNode)
  | valueParameter {key : SymbolKey} {symbol : SymbolRecord} {details : ValueParameterDetails}
    (parent : NodeId) (id : ValueParameterId) :
    table.symbols[key.index]? = some symbol → symbol.details = .valueParameter details →
    Made table (.node .valueParameter) { symbol := key, parent }
      ({ id, key, symbol, details, parent } : ValueParameterNode)
  | typeReference (type : TypeKey) (parent : Option NodeId) (index : Int) (origin : Origin)
    (id : TypeReferenceId) :
    Made table (.node .typeReference) { type, parent, index }
      ({ id, type, parent, index, origin } : TypeReference)
  | classifierReference {type : TypeKey} {record : TypeRecord} {className : String}
    {arguments : List (TypeArgument TypeKey)} (owner : TypeReferenceId) (origin : Origin)
    (id : ClassifierReferenceId) :
    table.types[type.index]? = some record → record.shape = .classType className arguments →
    Made table (.node .classifierReference) { type, owner }
      ({ id, type, owner, origin, className, arguments } : ClassifierReference)
  | callableReference {type : TypeKey} {record : TypeRecord} {shape : FunctionalType}
    (owner : TypeReferenceId) (origin : Origin) (id : CallableReferenceId) :
    table.types[type.index]? = some record → record.shape = .functional shape →
    Made table (.node .callableReference) { type, owner }
      ({ id, type, owner, origin, shape } : CallableReference)
  | dynamicReference (owner : TypeReferenceId) (origin : Origin) (id : DynamicReferenceId) :
    Made table (.node .dynamicReference) owner ({ id, owner, origin } : DynamicReference)
  | annotationUse {key : AnnotationKey} {record : AnnotationRecord} (parent : Option NodeId)
    (id : AnnotationId) :
    table.annotations[key.index]? = some record →
    Made table (.node .annotationUse) { key, parent } ({ id, key, record, parent } : AnnotationNode)
  | valueArgument (owner : AnnotationId) (source : ArgumentSource) (name : Option String)
    (value : AnnotationValue) (origin : Origin) (position : Option Position)
    (id : ValueArgumentId) :
    Made table (.node .valueArgument) { owner, source }
      ({ id, owner, name, value, origin, position } : ArgumentNode)
  | resolvedType {key : TypeKey} {type : TypeRecord} (id : TypeId) :
    table.types[key.index]? = some type →
    Made table .resolvedType key ({ id, key, type } : ResolvedType)

/-! ## Arguments of annotations -/

/-- The constant that a parameter has by default. It is looked for in native syntax only. -/
def SymbolTable.defaultConstant (table : SymbolTable) (parameter : SymbolRecord) : Option Constant := do
  let source ← parameter.source
  match source.form with
  | .native => table.expressions[(← source.defaultValue).index]?.join
  | _ => none

/-- What the arguments of an annotation say, by where they come from: a name if they have one, a value,
and where they were written. -/
inductive AnnotationNode.Argues (table : SymbolTable) (a : AnnotationNode) :
    ArgumentSource → Option String → AnnotationValue → Origin → Option Position → Prop
  | written {position : Nat} {argument : ArgumentRecord} :
    a.record.arguments[position]? = some argument →
    Argues table a (.written position) argument.name argument.value .source a.record.position
  | default {key : SymbolKey} {parameter : SymbolRecord} {name : String} {constant : Constant} :
    table.symbols[key.index]? = some parameter → parameter.name = some name →
    table.defaultConstant parameter = some constant →
    Argues table a (.default key) (some name) (.constant constant) .synthetic none

/-- An argument says what its annotation has it say. All other wrappers are made from their keys
alone. -/
def Kind.Backed (table : SymbolTable) (caches : Caches) : (kind : Kind) → kind.Key → kind.Wrapper → Prop
  | .node .valueArgument, (key : ArgumentKey), (w : ArgumentNode) =>
    ∃ a, caches.Issued key.owner a ∧
      AnnotationNode.Argues table a key.source w.name w.value w.origin w.position
  | _, _, _ => True

theorem Kind.Backed.grows {key : kind.Key} {w : kind.Wrapper} (h : kind.Backed table caches key w)
    (hgrows : caches.Grows later) : kind.Backed table later key w := by
  rcases kind with (_ | _) | _
  case node.valueArgument =>
    obtain ⟨a, ha, hargues⟩ := h
    exact ⟨a, ha.grows hgrows, hargues⟩
  all_goals trivial

theorem Kind.backed_of_ne (h : kind ≠ .node .valueArgument) (key : kind.Key) (w : kind.Wrapper) :
    kind.Backed table caches key w := by
  rcases kind with (_ | _) | _ <;> trivial

/-! ## Caches -/

/-- Caches that are well formed, with wrappers that hold what the table says. -/
structure Caches.Genuine (table : SymbolTable) (caches : Caches) : Prop where
  wellFormed : caches.WellFormed
  made : ∀ (kind : Kind) {key : kind.Key} {w : kind.Wrapper}, caches.lookup kind key = some w →
    Made table kind key w
  backed : ∀ (kind : Kind) {key : kind.Key} {w : kind.Wrapper}, caches.lookup kind key = some w →
    kind.Backed table caches key w

namespace Caches.Genuine

theorem empty : Genuine table {} := by
  have hempty {kind : Kind} {key : kind.Key} {w : kind.Wrapper} :
      ({} : Caches).lookup kind key ≠ some w := by
    rcases kind with (_ | _) | _ <;> simp [Caches.lookup, Caches.get, IdentityCache.lookup]
  exact ⟨.empty, fun _ _ _ hw => absurd hw hempty, fun _ _ _ hw => absurd hw hempty⟩

/-- Every issued wrapper was made from a key. -/
theorem exists_key (h : caches.Genuine table) {handle : Handle kind} {w : kind.Wrapper}
    (hw : caches.Issued handle w) : ∃ key, caches.lookup kind key = some w := by
  exact (h.wellFormed kind).exists_lookup hw

theorem issued_of_lookup (h : caches.Genuine table) {key : kind.Key} {w : kind.Wrapper}
    (hw : caches.lookup kind key = some w) : caches.Issued (kind.idOf w) w :=
  (h.wellFormed kind).get_of_lookup hw

/-- A wrapper carries the handle that it was issued with. -/
theorem idOf_eq (h : caches.Genuine table) {handle : Handle kind} {w : kind.Wrapper}
    (hw : caches.Issued handle w) : kind.idOf w = handle :=
  h.wellFormed.idOf_eq hw

/-- A number is issued for one key. -/
theorem key_unique (h : caches.Genuine table) (kind : Kind) {key other : kind.Key}
    {w v : kind.Wrapper} (hw : caches.lookup kind key = some w)
    (hv : caches.lookup kind other = some v)
    (hindex : (kind.idOf w).index = (kind.idOf v).index) : key = other :=
  (h.wellFormed kind).lookup_injective hw hv hindex

section

variable {f g : FunctionNode} {function : SymbolKey} (h : caches.Genuine table)
include h

/-- A function is known by its key. -/
theorem lookup_function (hf : caches.Issued f.id f) :
    caches.lookup (.node .function) f.key = some f := by
  obtain ⟨key, hkey⟩ := h.exists_key hf
  cases h.made _ hkey
  exact hkey

theorem function_unique (hf : caches.Issued f.id f) (hg : caches.Issued g.id g)
    (hkey : f.key = g.key) : f = g := by
  have hlookup := h.lookup_function hf
  rw [hkey, h.lookup_function hg] at hlookup
  exact (Option.some.inj hlookup).symm

/-- A function is what the table says of its key. -/
theorem function_shown (hf : caches.lookup (.node .function) function = some f) {symbol : SymbolRecord}
    {details : FunctionDetails} (hsymbol : table.symbols[function.index]? = some symbol)
    (hdetails : symbol.details = .function details) :
    f.key = function ∧ f.symbol = symbol ∧ f.details = details := by
  cases h.made _ hf with | function id hsymbol' hdetails' =>
  cases hsymbol.symm.trans hsymbol'
  cases hdetails.symm.trans hdetails'
  exact ⟨rfl, rfl, rfl⟩

end

end Caches.Genuine

/-! ## Keys of nodes -/

/-- What a node is told apart by: its kind, and its key among the nodes of that kind. -/
structure NodeKey where
  kind : NodeKind
  key : kind.Key

/-- The node is the one with this key. -/
def NodeKey.At (caches : Caches) (k : NodeKey) (node : NodeId) : Prop :=
  ∃ w, caches.lookup (.node k.kind) k.key = some w ∧ ((Kind.node k.kind).idOf w).node = node

theorem NodeKey.At.grows {k : NodeKey} {node : NodeId} (h : k.At caches node)
    (hgrows : caches.Grows later) : k.At later node := by
  obtain ⟨w, hw, hnode⟩ := h
  exact ⟨w, hgrows.lookup hw, hnode⟩

/-- Every issued node has a key. -/
theorem Caches.Genuine.exists_at (h : caches.Genuine table) {node : NodeId}
    {w : node.kind.Wrapper} (hw : caches.Issued node.handle w) :
    ∃ key : node.kind.Key, caches.lookup (.node node.kind) key = some w ∧
      NodeKey.At caches ⟨node.kind, key⟩ node := by
  obtain ⟨key, hlookup⟩ := h.exists_key hw
  exact ⟨key, hlookup, w, hlookup, congrArg Handle.node (h.idOf_eq hw)⟩

/-! ## Declarations -/

/-- The kind of node that a symbol is wrapped as. -/
def SymbolDetails.sort : SymbolDetails → NodeKind
  | classLike _ => .classLike
  | function _ => .function
  | property _ => .property
  | getter _ => .getter
  | setter _ => .setter
  | valueParameter _ => .valueParameter
  | typeParameter _ => .typeParameter

/-- The simple name of a symbol as a declaration. -/
def SymbolRecord.simpleName (symbol : SymbolRecord) : String :=
  match symbol.details with
  | .classLike _ => symbol.name.getD "<no name provided>"
  | .function f => if f.isConstructor then "<init>" else symbol.displayName
  | _ => symbol.displayName

namespace Declaration

variable {d e : Declaration} {key : SymbolKey}

/-- What the table says of the symbol of a declaration. -/
structure Genuine (table : SymbolTable) (key : SymbolKey) (d : Declaration) : Prop where
  key_eq : d.key = key
  symbol : table.symbols[key.index]? = some d.symbol
  sort : d.symbol.details.sort = d.node.kind
  simpleName : d.symbol.simpleName = d.simpleName

theorem FoundUnder.genuine (h : d.FoundUnder caches key) (hcaches : caches.Genuine table) :
    d.Genuine table key := by
  cases d with
  | classLike w =>
    cases hcaches.made (.node .classLike) h with
    | @classLike _ symbol details id hsymbol hdetails =>
      cases symbol
      cases hdetails
      exact ⟨rfl, hsymbol, rfl, rfl⟩
  | function w =>
    cases hcaches.made (.node .function) h with
    | @function _ symbol details id hsymbol hdetails =>
      cases symbol
      cases hdetails
      exact ⟨rfl, hsymbol, rfl, rfl⟩
  | property w =>
    cases hcaches.made (.node .property) h with
    | @property _ symbol details id hsymbol hdetails =>
      cases symbol
      cases hdetails
      exact ⟨rfl, hsymbol, rfl, rfl⟩
  | typeParameter w =>
    cases hcaches.made (.node .typeParameter) h with
    | @typeParameter _ symbol details id hsymbol hdetails =>
      cases symbol
      cases hdetails
      exact ⟨rfl, hsymbol, rfl, rfl⟩

/-- A symbol is wrapped as one declaration only. -/
theorem FoundUnder.unique (hd : d.FoundUnder caches key)
    (he : e.FoundUnder caches key) (hgenuine : caches.Genuine table) : d = e := by
  -- The table says in which cache the symbol is, so both are found in the same one.
  have hsort : d.node.kind = e.node.kind := by
    have hd := hd.genuine hgenuine
    have he := he.genuine hgenuine
    rw [← hd.sort, ← he.sort, Option.some.inj (hd.symbol.symm.trans he.symbol)]
  cases d <;> cases e
  case classLike.classLike | function.function | property.property | typeParameter.typeParameter =>
    cases Option.some.inj (hd.symm.trans he)
    rfl
  all_goals cases hsort

end Declaration

end SymbolGraph
