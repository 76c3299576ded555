import SymbolGraph.Proofs.Tidy.Offspring

/-!
# What children are

A child is known by its key: it is an annotation or a reference that has its parent in its key, or a
symbol that its parent lists.
-/

namespace SymbolGraph

variable {table : SymbolTable} {caches : Caches} {kind : NodeKind}

/-! ## What symbols list -/

namespace SymbolRecord

/-- The declarations that a symbol lists. -/
def contents (symbol : SymbolRecord) : List SymbolKey :=
  match symbol.details with
  | .classLike c => c.typeParameters ++ (c.constructors ++ c.members)
  | .function f => f.typeParameters ++ (symbol.source.map Source.localDeclarations).getD []
  | .property p => p.typeParameters
  | .getter _ | .setter _ | .valueParameter _ | .typeParameter _ => []

/-- The accessors and the value parameters that a symbol lists. -/
def accessories (symbol : SymbolRecord) : List SymbolKey :=
  match symbol.details with
  | .function f => f.valueParameters
  | .property p => p.getter.toList ++ p.setter.toList
  | .setter parameter => parameter.toList
  | .classLike _ | .getter _ | .valueParameter _ | .typeParameter _ => []

end SymbolRecord

namespace NodeKind

/-- The declarations that a wrapper lists. -/
def contents : (kind : NodeKind) → kind.Wrapper → List SymbolKey
  | .file, (w : FileNode) => w.file.declarations
  | .classLike, (w : ClassNode) => w.details.typeParameters ++ w.declarationKeys
  | .function, (w : FunctionNode) => w.details.typeParameters ++ w.declarationKeys
  | .property, (w : PropertyNode) => w.details.typeParameters
  | _, _ => []

/-- The accessors and the value parameters that a wrapper lists. -/
def accessories : (kind : NodeKind) → kind.Wrapper → List SymbolKey
  | .function, (w : FunctionNode) => w.details.valueParameters
  | .property, (w : PropertyNode) => w.details.getter.toList ++ w.details.setter.toList
  | .setter, (w : SetterNode) => w.parameterKey.toList
  | _, _ => []

end NodeKind

/-! ## What keys tell -/

namespace NodeKey

/-- The node that is part of a key. -/
def holder : NodeKey → Option NodeId
  | ⟨.getter, key⟩ | ⟨.setter, key⟩ => some key.receiver.node
  | ⟨.valueParameter, key⟩ => some key.parent
  | ⟨.typeReference, key⟩ => key.parent
  | ⟨.classifierReference, key⟩ | ⟨.callableReference, key⟩ => some key.owner.node
  | ⟨.dynamicReference, key⟩ => some key.node
  | ⟨.annotationUse, key⟩ => key.parent
  | ⟨.valueArgument, key⟩ => some key.owner.node
  | ⟨.file, _⟩ | ⟨.classLike, _⟩ | ⟨.function, _⟩ | ⟨.property, _⟩ | ⟨.typeParameter, _⟩ => none

/-- The symbol of a declaration. -/
def declaration? : NodeKey → Option SymbolKey
  | ⟨.classLike, key⟩ | ⟨.function, key⟩ | ⟨.property, key⟩ | ⟨.typeParameter, key⟩ => some key
  | _ => none

/-- The symbol that a key is of. -/
def symbol? : NodeKey → Option SymbolKey
  | ⟨.classLike, key⟩ | ⟨.function, key⟩ | ⟨.property, key⟩ | ⟨.typeParameter, key⟩ => some key
  | ⟨.getter, key⟩ | ⟨.setter, key⟩ => some key.symbol
  | ⟨.valueParameter, key⟩ => some key.symbol
  | _ => none

theorem symbol?_of_declaration? {k : NodeKey} {key : SymbolKey} (h : k.declaration? = some key) :
    k.symbol? = some key := by
  obtain ⟨kind, _⟩ := k
  cases kind <;> cases h <;> rfl

theorem declaration?_of_declared {key : SymbolKey} {k : NodeKey}
    (h : table.declared key = some k) : k.declaration? = some key := by
  obtain ⟨symbol, _, h⟩ := Option.bind_eq_some_iff.mp h
  split at h <;> cases h <;> rfl

end NodeKey

/-- A wrapper of a symbol lists what the symbol lists. -/
theorem Made.symbol {k : NodeKey} {w : k.kind.Wrapper} (h : Made table (.node k.kind) k.key w)
    {key : SymbolKey} (hkey : k.symbol? = some key) :
    ∃ symbol, table.symbols[key.index]? = some symbol ∧ k.kind.contents w = symbol.contents ∧
      k.kind.accessories w = symbol.accessories := by
  obtain ⟨kind, nodeKey⟩ := k
  cases h with
  | classLike id hsymbol hdetails | function id hsymbol hdetails | property id hsymbol hdetails
  | typeParameter id hsymbol hdetails | getter id hsymbol hdetails | setter id hsymbol hdetails
  | valueParameter _ id hsymbol hdetails =>
    cases hkey
    refine ⟨_, hsymbol, ?_, ?_⟩
    · rw [SymbolRecord.contents, hdetails]
      rfl
    · rw [SymbolRecord.accessories, hdetails]
      rfl
  | _ => cases hkey

/-! ## What children are -/

/-- What a child of a node is if the node lists these symbols. -/
inductive NodeKey.Below (node : NodeId) (contents accessories : List SymbolKey) : NodeKey → Prop
  | annotationUse (key : AnnotationKey) : Below node contents accessories ⟨.annotationUse, key.on node⟩
  | reference {key : TypeReferenceKey} : key.parent = some node →
    Below node contents accessories (.reference key)
  /-- The element of a reference, or an argument of an annotation. -/
  | part {k : NodeKey} : node.kind = .typeReference ∨ node.kind = .annotationUse →
    k.holder = some node → Below node contents accessories k
  | accessory {k : NodeKey} {key : SymbolKey} : key ∈ accessories → k.symbol? = some key →
    k.holder = some node → Below node contents accessories k
  | declaration {k : NodeKey} {key : SymbolKey} : key ∈ contents → k.declaration? = some key →
    Below node contents accessories k

namespace NodeKey.Below

variable {node : NodeId} {contents accessories : List SymbolKey} {k : NodeKey}

theorem of_annotations {keys : List AnnotationKey} (h : k ∈ annotations node keys) :
    k.Below node contents accessories := by
  obtain ⟨_, hkey, rfl⟩ := List.mem_map.mp h
  obtain ⟨key, _, rfl⟩ := List.mem_map.mp hkey
  exact .annotationUse key

theorem of_references {types : List TypeReferenceKey} (h : k ∈ types.map NodeKey.reference)
    (htypes : ∀ type ∈ types, type.parent = some node) : k.Below node contents accessories := by
  obtain ⟨type, htype, rfl⟩ := List.mem_map.mp h
  exact .reference (htypes type htype)

theorem of_under {types : List TypeKey}
    (h : k ∈ (types.map (·.under node)).map NodeKey.reference) :
    k.Below node contents accessories := by
  refine of_references h fun type htype => ?_
  obtain ⟨_, _, rfl⟩ := List.mem_map.mp htype
  rfl

theorem of_reference? {type : Option TypeKey} (h : k ∈ reference? node type) :
    k.Below node contents accessories := by
  rw [reference?, Option.toList_map] at h
  exact of_under h

theorem of_entries {index : Nat} {types : List TypeKey}
    (h : k ∈ (TypeKey.entries node index types).map NodeKey.reference) :
    k.Below node contents accessories := by
  refine of_references h fun type htype => ?_
  clear h
  induction types generalizing index with
  | nil => cases htype
  | cons first types ih =>
    rcases List.mem_cons.mp htype with rfl | hrest
    · rfl
    · exact ih hrest

theorem of_accessories {keys : List SymbolKey} {make : SymbolKey → NodeKey} (h : k ∈ keys.map make)
    (hkeys : keys ⊆ accessories) (hsymbol : ∀ key, (make key).symbol? = some key)
    (hholder : ∀ key, (make key).holder = some node) : k.Below node contents accessories := by
  obtain ⟨key, hkey, rfl⟩ := List.mem_map.mp h
  exact .accessory (hkeys hkey) (hsymbol key) (hholder key)

theorem of_typeParameters {keys : List SymbolKey} (h : k ∈ typeParameters keys)
    (hkeys : keys ⊆ contents) : k.Below node contents accessories := by
  obtain ⟨_, hkey, rfl⟩ := List.mem_map.mp h
  exact .declaration (hkeys hkey) rfl

theorem of_declared {keys : List SymbolKey} (h : k ∈ keys.filterMap table.declared)
    (hkeys : keys ⊆ contents) : k.Below node contents accessories := by
  obtain ⟨_, hkey, hk⟩ := List.mem_filterMap.mp h
  exact .declaration (hkeys hkey) (declaration?_of_declared hk)

end NodeKey.Below

/-- Every child is right below its parent. -/
theorem Offspring.below {w : kind.Wrapper} {keys : List NodeKey} (h : Offspring table kind w keys)
    {k : NodeKey} (hk : k ∈ keys) :
    k.Below ((Kind.node kind).idOf w).node (kind.contents w) (kind.accessories w) := by
  cases h <;> try simp only [List.mem_append, List.mem_singleton, or_assoc, List.not_mem_nil] at hk
  case file =>
    rcases hk with h | h
    · exact .of_annotations h
    · exact .of_declared h (List.Subset.refl _)
  case classLike =>
    rcases hk with h | h | h | h
    · exact .of_annotations h
    · exact .of_typeParameters h (List.subset_append_left _ _)
    · exact .of_entries h
    · exact .of_declared h (List.subset_append_right _ _)
  case function =>
    rcases hk with h | h | h | h | rfl | h
    · exact .of_annotations h
    · exact .of_typeParameters h (List.subset_append_left _ _)
    · exact .of_reference? h
    · exact .of_accessories h (List.Subset.refl _) (fun _ => rfl) fun _ => rfl
    · exact .reference rfl
    · exact .of_declared h (List.subset_append_right _ _)
  case property =>
    rcases hk with h | h | h | rfl | h | h
    · exact .of_annotations h
    · exact .of_typeParameters h (List.Subset.refl _)
    · exact .of_reference? h
    · exact .reference rfl
    · exact .of_accessories h (List.subset_append_left _ _) (fun _ => rfl) fun _ => rfl
    · exact .of_accessories h (List.subset_append_right _ _) (fun _ => rfl) fun _ => rfl
  case getter | valueParameter =>
    rcases hk with h | rfl
    · exact .of_annotations h
    · exact .reference rfl
  case setter key hkey =>
    rcases hk with h | rfl
    · exact .of_annotations h
    · exact .accessory (Option.mem_toList.mpr hkey) rfl rfl
  case typeParameter =>
    rcases hk with h | h
    · exact .of_annotations h
    · exact .of_entries h
  case typeReference helement =>
    rcases hk with h | h
    · exact .of_annotations h
    · cases helement with
      | none => cases h
      | classifier | bound | callable | dynamic =>
        cases List.mem_singleton.mp h
        exact .part (.inl rfl) rfl
  case classifierReference => exact .of_under hk
  case callableReference =>
    rcases hk with h | h | rfl
    · exact .of_reference? h
    · exact .of_under h
    · exact .reference rfl
  case annotationUse =>
    rcases hk with h | h
    · exact .of_reference? h
    · obtain ⟨_, _, rfl⟩ := List.mem_map.mp h
      exact .part (.inr rfl) rfl

end SymbolGraph
