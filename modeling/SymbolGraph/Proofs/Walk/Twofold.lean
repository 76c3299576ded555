import Mathlib.Data.List.Count
import Mathlib.Data.List.Duplicate
import SymbolGraph.Proofs.Tidy.Listing
import SymbolGraph.Proofs.Walk.Lasting

/-!
# Children with several places

A child is wrapped under a key, and a node may come to the same key from two of its lists: two types
of a function are one type, or an annotation is its own and its property's as well. The child then
stands among the children more than once. All the ways in which this happens are told here.
-/

namespace SymbolGraph

variable {α β : Type} {world : World} {table : SymbolTable} {caches : Caches} {kind : NodeKind}
  {s t : SessionState ReturnTypes} {k : NodeKey} {keys : List NodeKey}

/-! ## Repetitions in lists -/

theorem duplicate_append {a : α} {l l' : List α} :
    List.Duplicate a (l ++ l') ↔
      List.Duplicate a l ∨ List.Duplicate a l' ∨ a ∈ l ∧ a ∈ l' := by
  classical
  simp only [List.duplicate_iff_two_le_count, List.count_append, ← List.count_pos_iff]
  omega

theorem exists_duplicate_of_map {f : α → β} (hf : Function.Injective f) {l : List α} {b : β}
    (h : List.Duplicate b (l.map f)) : ∃ a, List.Duplicate a l ∧ f a = b := by
  classical
  obtain ⟨a, _, rfl⟩ := List.mem_map.mp h.mem
  rw [List.duplicate_iff_two_le_count, List.count_map_of_injective l f hf] at h
  exact ⟨a, List.duplicate_iff_two_le_count.mpr h, rfl⟩

theorem duplicate_filterMap {f : α → Option β} {l : List α} {a : α} {b : β}
    (h : List.Duplicate a l) (hf : f a = some b) : List.Duplicate b (l.filterMap f) := by
  rw [List.duplicate_iff_sublist] at h ⊢
  have hsublist := h.filterMap f
  simpa [hf] using hsublist

theorem not_duplicate_toList (a : α) (o : Option α) : ¬ List.Duplicate a o.toList := by
  cases o with
  | none => exact List.not_duplicate_nil a
  | some b => exact List.not_duplicate_singleton a b

/-! ## Nodes and keys -/

/-- A node has one key. -/
theorem NodeKey.At.unique {k' : NodeKey} {node : NodeId} (h : k.At caches node)
    (h' : k'.At caches node) (hgenuine : caches.Genuine table) : k = k' := by
  obtain ⟨w, hw, hnode⟩ := h
  obtain ⟨w', hw', hnode'⟩ := h'
  obtain ⟨kind, key⟩ := k
  obtain ⟨kind', key'⟩ := k'
  have hsame := hnode.trans hnode'.symm
  cases congrArg NodeId.kind hsame
  have hkey : key = key' := hgenuine.key_unique (.node kind) hw hw' (congrArg NodeId.index hsame)
  rw [hkey]

/-- A node that stands twice among some nodes has a key that stands twice among theirs. -/
theorem View.exists_duplicate {nodes : List NodeId} {node : NodeId} (hgenuine : caches.Genuine table)
    (h : View.keyed.list.Shows caches nodes keys) (hnode : List.Duplicate node nodes) :
    ∃ k, List.Duplicate k keys ∧ k.At caches node := by
  induction hnode generalizing keys with
  | cons_mem hmem =>
    cases h with | @cons _ k _ _ hk hrest =>
    obtain ⟨k', hk', hat⟩ := View.list_exists hrest hmem
    cases hat.unique hk hgenuine
    exact ⟨k, .cons_mem hk', hk⟩
  | cons_duplicate _ ih =>
    cases h with | cons _ hrest =>
    obtain ⟨k, hk, hat⟩ := ih hrest
    exact ⟨k, hk.duplicate_cons _, hat⟩

/-! ## Twofold children -/

/-- No annotation stands twice in the list of a file, a symbol or a type. -/
structure SymbolTable.AnnotatedOnce (table : SymbolTable) : Prop where
  files : ∀ {key : FileKey} {record : FileRecord}, table.files[key.index]? = some record →
    record.annotations.Nodup
  symbols : ∀ {key : SymbolKey} {record : SymbolRecord}, table.symbols[key.index]? = some record →
    record.annotations.Nodup
  types : ∀ {key : TypeKey} {record : TypeRecord}, table.types[key.index]? = some record →
    record.annotations.Nodup

/-- The keys under which a wrapper may find one child in several places. -/
inductive Twofold (world : World) (s : SessionState ReturnTypes) :
    (kind : NodeKind) → kind.Wrapper → NodeKey → Prop
  /-- A function returns the type that it extends. -/
  | returnType {w : FunctionNode} {r : TypeReference} : w.returnType world.session s = .ok r s →
    w.details.receiverType = some r.type →
    Twofold world s .function w (.reference (r.type.under w.id.node))
  /-- A function lists a parameter twice. -/
  | parameter {w : FunctionNode} {key : SymbolKey} : List.Duplicate key w.details.valueParameters →
    Twofold world s .function w (.valueParameter w.id.node key)
  /-- A property has the type that it extends. -/
  | propertyType {w : PropertyNode} : w.details.receiverType = some w.details.type →
    Twofold world s .property w (.reference (w.details.type.under w.id.node))
  /-- A class type has one type as two of its arguments. -/
  | typeArgument {w : ClassifierReference} {type : TypeKey} :
    List.Duplicate type (w.arguments.filterMap TypeArgument.type?) →
    Twofold world s .classifierReference w (.reference (type.under w.id.node))
  /-- A functional type has one type in several places. -/
  | functionalPart {w : CallableReference} {type : TypeKey} :
    List.Duplicate type
      (w.shape.receiver.toList ++ w.shape.parameters ++ [w.shape.returnType]) →
    Twofold world s .callableReference w (.reference (type.under w.id.node))
  /-- An annotation of a getter is aimed at it from the property as well. -/
  | getter {w : GetterNode} {property : PropertyNode} {key : AnnotationKey} :
    s.caches.Issued w.receiver property → key ∈ w.symbol.annotations →
    key ∈ world.table.aimed (· = some .getter) property.symbol.annotations →
    Twofold world s .getter w ⟨.annotationUse, key.on w.id.node⟩
  | setter {w : SetterNode} {property : PropertyNode} {key : AnnotationKey} :
    s.caches.Issued w.receiver property → key ∈ w.symbol.annotations →
    key ∈ world.table.aimed (· = some .setter) property.symbol.annotations →
    Twofold world s .setter w ⟨.annotationUse, key.on w.id.node⟩
  | setterParameter {w : ValueParameterNode} {setter : SetterNode} {property : PropertyNode}
    {key : AnnotationKey} : w.parent.kind = .setter →
    s.caches.Issued (⟨w.parent.index⟩ : SetterId) setter →
    s.caches.Issued setter.receiver property → key ∈ w.symbol.annotations →
    key ∈ world.table.aimed (· = some .setterParameter) property.symbol.annotations →
    Twofold world s .valueParameter w ⟨.annotationUse, key.on w.id.node⟩
  /-- The constructor of an annotation lists a parameter twice. -/
  | default {w : AnnotationNode} {key : SymbolKey} :
    List.Duplicate key (world.table.defaultParameters w.record) →
    Twofold world s .annotationUse w ⟨.valueArgument, { owner := w.id, source := .default key }⟩

/-- The child may stand in several places under its parent. -/
def TwofoldUnder (world : World) (s : SessionState ReturnTypes) (parent child : NodeId) : Prop :=
  ∃ w k, s.caches.Issued parent.handle w ∧ k.At s.caches child ∧ Twofold world s parent.kind w k

/-! ## Repetitions among keys -/

theorem not_duplicate_toList_map (o : Option α) (f : α → β) (b : β) :
    ¬ List.Duplicate b (o.toList.map f) := by
  cases o with
  | none => exact List.not_duplicate_nil b
  | some a => exact List.not_duplicate_singleton b (f a)

@[grind →] theorem mem_of_duplicate {a : α} {l : List α} (h : List.Duplicate a l) : a ∈ l := h.mem

namespace NodeKey

variable {node : NodeId}

theorem kind_of_mem_map {f : α → NodeKey} {l : List α} (hf : ∀ a, (f a).kind = kind)
    (h : k ∈ l.map f) : k.kind = kind := by
  obtain ⟨a, _, rfl⟩ := List.mem_map.mp h
  exact hf a

@[simp, grind =] theorem kind_reference (key : TypeReferenceKey) :
    (reference key).kind = .typeReference := rfl

theorem declaration?_of_reference (h : k.kind = .typeReference) : k.declaration? = none := by
  obtain ⟨kind, _⟩ := k
  cases h
  rfl

@[grind →] theorem kind_of_annotations {l : List AnnotationKey} (h : k ∈ annotations node l) :
    k.kind = .annotationUse := kind_of_mem_map (fun _ => rfl) h

@[grind →] theorem kind_of_references {l : List TypeReferenceKey} (h : k ∈ l.map reference) :
    k.kind = .typeReference := kind_of_mem_map (fun _ => rfl) h

@[grind →] theorem kind_of_reference? {type : Option TypeKey} (h : k ∈ reference? node type) :
    k.kind = .typeReference := kind_of_references h

@[grind →] theorem kind_of_valueParameters {l : List SymbolKey}
    (h : k ∈ l.map (valueParameter node)) : k.kind = .valueParameter :=
  kind_of_mem_map (fun _ => rfl) h

@[grind →] theorem declaration?_of_typeParameters {l : List SymbolKey} (h : k ∈ typeParameters l) :
    k.declaration? ≠ none := by
  obtain ⟨_, _, rfl⟩ := List.mem_map.mp h
  exact Option.some_ne_none _

@[grind →] theorem declaration?_of_mem_declared {l : List SymbolKey}
    (h : k ∈ l.filterMap table.declared) : k.declaration? ≠ none := by
  obtain ⟨_, _, hkey⟩ := List.mem_filterMap.mp h
  rw [declaration?_of_declared hkey]
  exact Option.some_ne_none _

theorem duplicate_annotations {l : List AnnotationKey} (h : List.Duplicate k (annotations node l)) :
    ∃ key, List.Duplicate key l ∧ k = ⟨.annotationUse, key.on node⟩ := by
  rw [annotations, List.map_map] at h
  obtain ⟨key, hkey, rfl⟩ := exists_duplicate_of_map (fun a b hab => by cases hab; rfl) h
  exact ⟨key, hkey, rfl⟩

theorem not_duplicate_annotations (k : NodeKey) (node : NodeId) {l : List AnnotationKey}
    (h : l.Nodup) : ¬ List.Duplicate k (annotations node l) := by
  intro hk
  obtain ⟨_, hkey, _⟩ := duplicate_annotations hk
  exact hkey.not_nodup h

theorem duplicate_under {owner : Option NodeId} {types : List TypeKey}
    (h : List.Duplicate k ((types.map (·.under owner)).map reference)) :
    ∃ type, List.Duplicate type types ∧ k = reference (type.under owner) := by
  rw [List.map_map] at h
  obtain ⟨type, htype, rfl⟩ := exists_duplicate_of_map (fun a b hab => by cases hab; rfl) h
  exact ⟨type, htype, rfl⟩

theorem duplicate_valueParameters {l : List SymbolKey}
    (h : List.Duplicate k (l.map (valueParameter node))) :
    ∃ key, List.Duplicate key l ∧ k = valueParameter node key := by
  obtain ⟨key, hkey, rfl⟩ := exists_duplicate_of_map (fun a b hab => by cases hab; rfl) h
  exact ⟨key, hkey, rfl⟩

theorem not_duplicate_reference? (k : NodeKey) (node : NodeId) (type : Option TypeKey) :
    ¬ List.Duplicate k (reference? node type) := not_duplicate_toList_map _ _ _

theorem mem_reference? {type : Option TypeKey} (h : k ∈ reference? node type) :
    ∃ t, type = some t ∧ k = reference (t.under node) := by
  cases type with
  | none => cases h
  | some t => exact ⟨t, rfl, List.mem_singleton.mp h⟩

theorem le_index_of_entries {index : Nat} {types : List TypeKey} {key : TypeReferenceKey}
    (h : key ∈ TypeKey.entries node index types) : (index : Int) ≤ key.index := by
  induction types generalizing index with
  | nil => cases h
  | cons type types ih =>
    rcases List.mem_cons.mp h with rfl | h
    · exact Int.le_refl _
    · have := ih h
      omega

/-- Types in a numbered list are told apart by their places. -/
theorem nodup_entries (node : NodeId) (index : Nat) (types : List TypeKey) :
    (TypeKey.entries node index types).Nodup := by
  induction types generalizing index with
  | nil => exact .nil
  | cons type types ih =>
    refine List.nodup_cons.mpr ⟨fun h => ?_, ih (index + 1)⟩
    have hindex := le_index_of_entries h
    simp only at hindex
    omega

theorem not_duplicate_entries (k : NodeKey) (node : NodeId) (index : Nat) (types : List TypeKey) :
    ¬ List.Duplicate k ((TypeKey.entries node index types).map reference) := by
  intro h
  obtain ⟨_, hkey, _⟩ := exists_duplicate_of_map (fun a b hab => by cases hab; rfl) h
  exact hkey.not_nodup (nodup_entries node index types)

end NodeKey

/-! ## Repetitions by kind -/

namespace Offspring

/-- If a wrapper lists no declaration twice, none stands twice among its children. -/
theorem declaration?_of_duplicate {w : kind.Wrapper} (h : Offspring table kind w keys)
    (hcontents : (kind.contents w).Nodup) (hk : List.Duplicate k keys) : k.declaration? = none := by
  cases hkey : k.declaration? with
  | none => rfl
  | some key =>
    have hduplicate := duplicate_filterMap hk hkey
    rw [h.filterMap_declaration?] at hduplicate
    rw [kind.contents_eq] at hcontents
    have hsublist : (kind.typeParameterKeys w ++
        (kind.declarationKeys w).filter fun key => (table.declared key).isSome).Sublist
        (kind.typeParameterKeys w ++ kind.declarationKeys w) :=
      List.Sublist.append (List.Sublist.refl _) List.filter_sublist
    exact absurd (hcontents.sublist hsublist) hduplicate.not_nodup

theorem not_duplicate_file {w : FileNode} (h : Offspring table .file w keys)
    (hannotations : w.file.annotations.Nodup) (hnone : k.declaration? = none) :
    ¬ List.Duplicate k keys := by
  cases h with | file =>
  have hA := NodeKey.not_duplicate_annotations k w.id.node hannotations
  simp only [duplicate_append]
  grind

theorem not_duplicate_class {w : ClassNode} (h : Offspring table .classLike w keys)
    (hannotations : ((Declaration.classLike w).annotationKeys table).Nodup)
    (hnone : k.declaration? = none) : ¬ List.Duplicate k keys := by
  cases h with | classLike =>
  have hA := NodeKey.not_duplicate_annotations k w.id.node hannotations
  have hE := NodeKey.not_duplicate_entries k w.id.node 0 w.details.supertypes
  simp only [duplicate_append, List.mem_append]
  grind

theorem not_duplicate_typeParameter {w : TypeParameterNode}
    (h : Offspring table .typeParameter w keys)
    (hannotations : ((Declaration.typeParameter w).annotationKeys table).Nodup) :
    ¬ List.Duplicate k keys := by
  cases h with | typeParameter =>
  have hA := NodeKey.not_duplicate_annotations k w.id.node hannotations
  have hE := NodeKey.not_duplicate_entries k w.id.node 0 w.details.bounds
  simp only [duplicate_append]
  grind

theorem not_duplicate_typeReference {w : TypeReference} (h : Offspring table .typeReference w keys)
    (hannotations : table.AnnotatedOnce) : ¬ List.Duplicate k keys := by
  cases h with | @typeReference _ record element htype helement =>
  have hA := NodeKey.not_duplicate_annotations k w.id.node (hannotations.types htype)
  have hE : ¬ List.Duplicate k element.toList := not_duplicate_toList k element
  have hkind : k ∈ element.toList → k.kind ≠ .annotationUse := by
    intro hk
    cases helement with
    | none => cases hk
    | classifier | bound | callable | dynamic =>
      cases List.mem_singleton.mp hk
      nofun
  simp only [duplicate_append]
  grind

/-- A function shows something twice if it returns the type that it extends, or lists a parameter
twice. -/
theorem duplicate_function {w : FunctionNode} (h : Offspring table .function w keys)
    (hannotations : ((Declaration.function w).annotationKeys table).Nodup)
    (hnone : k.declaration? = none) (hk : List.Duplicate k keys) :
    (∃ type, w.details.receiverType = some type ∧ k = .reference (type.under w.id.node) ∧
      ∀ k' ∈ keys, k'.kind = .typeReference → k' = k) ∨
    ∃ key, List.Duplicate key w.details.valueParameters ∧ k = .valueParameter w.id.node key := by
  cases h with | function _ returnType =>
  have hA := NodeKey.not_duplicate_annotations k w.id.node hannotations
  have hR := NodeKey.not_duplicate_reference? k w.id.node w.details.receiverType
  have hr := List.not_duplicate_singleton k (.reference (returnType.under w.id.node))
  -- Among parts of different kinds, only the returned type can meet another one.
  have hcases : List.Duplicate k (w.details.valueParameters.map (.valueParameter w.id.node)) ∨
      k ∈ NodeKey.reference? w.id.node w.details.receiverType ∧
        k = .reference (returnType.under w.id.node) := by
    simp only [duplicate_append, List.mem_append, List.mem_singleton] at hk
    grind
  rcases hcases with hk | ⟨hreceiver, hreturn⟩
  · exact .inr (NodeKey.duplicate_valueParameters hk)
  · obtain ⟨type, htype, hk⟩ := NodeKey.mem_reference? hreceiver
    refine .inl ⟨type, htype, hk, fun k' hk' hkind => ?_⟩
    have hnone := NodeKey.declaration?_of_reference hkind
    have hfirst : k' ∈ NodeKey.reference? w.id.node w.details.receiverType → k' = k := by
      intro hk'
      obtain ⟨type', htype', rfl⟩ := NodeKey.mem_reference? hk'
      cases htype.symm.trans htype'
      exact hk.symm
    simp only [List.mem_append, List.mem_singleton] at hk'
    grind

/-- A property shows something twice if it has the type that it extends. -/
theorem duplicate_property {w : PropertyNode} (h : Offspring table .property w keys)
    (hannotations : ((Declaration.property w).annotationKeys table).Nodup)
    (hnone : k.declaration? = none) (hk : List.Duplicate k keys) :
    w.details.receiverType = some w.details.type ∧
      k = .reference (w.details.type.under w.id.node) := by
  cases h with | property =>
  have hA := NodeKey.not_duplicate_annotations k w.id.node hannotations
  have hR := NodeKey.not_duplicate_reference? k w.id.node w.details.receiverType
  have hr := List.not_duplicate_singleton k (.reference (w.details.type.under w.id.node))
  let getter (key : SymbolKey) : NodeKey := ⟨.getter, { receiver := w.id, symbol := key }⟩
  let setter (key : SymbolKey) : NodeKey := ⟨.setter, { receiver := w.id, symbol := key }⟩
  have hG := not_duplicate_toList_map w.details.getter getter k
  have hS := not_duplicate_toList_map w.details.setter setter k
  have hgetter := NodeKey.kind_of_mem_map (k := k) (f := getter) (l := w.details.getter.toList)
    fun _ => rfl
  have hsetter := NodeKey.kind_of_mem_map (k := k) (f := setter) (l := w.details.setter.toList)
    fun _ => rfl
  obtain ⟨hreceiver, htype⟩ : k ∈ NodeKey.reference? w.id.node w.details.receiverType ∧
      k = .reference (w.details.type.under w.id.node) := by
    simp only [duplicate_append, List.mem_append, List.mem_singleton] at hk
    grind
  obtain ⟨type, hsome, hk⟩ := NodeKey.mem_reference? hreceiver
  cases hk.symm.trans htype
  exact ⟨hsome, htype⟩

theorem duplicate_classifierReference {w : ClassifierReference}
    (h : Offspring table .classifierReference w keys) (hk : List.Duplicate k keys) :
    ∃ type, List.Duplicate type (w.arguments.filterMap TypeArgument.type?) ∧
      k = .reference (type.under w.id.node) := by
  cases h with | classifierReference =>
  exact NodeKey.duplicate_under hk

theorem duplicate_callableReference {w : CallableReference}
    (h : Offspring table .callableReference w keys) (hk : List.Duplicate k keys) :
    ∃ type, List.Duplicate type
        (w.shape.receiver.toList ++ w.shape.parameters ++ [w.shape.returnType]) ∧
      k = .reference (type.under w.id.node) := by
  cases h with | callableReference =>
  apply NodeKey.duplicate_under
  simpa only [List.map_append, NodeKey.reference?, Option.toList_map, List.map_cons, List.map_nil]
    using hk

end Offspring

/-- What is selected twice for an accessor comes from the accessor and from its property. -/
theorem NodeKey.duplicate_aimed {node : NodeId} {own taken : List AnnotationKey}
    {wanted : Option UseSiteTarget → Bool} (hown : own.Nodup) (htaken : taken.Nodup)
    (h : List.Duplicate k (annotations node (own ++ table.aimed wanted taken))) :
    ∃ key ∈ own, key ∈ table.aimed wanted taken ∧ k = ⟨.annotationUse, key.on node⟩ := by
  obtain ⟨key, hkey, rfl⟩ := duplicate_annotations h
  rcases duplicate_append.mp hkey with hkey | hkey | ⟨hfirst, hsecond⟩
  · exact absurd hown hkey.not_nodup
  · exact absurd (htaken.filter _) hkey.not_nodup
  · exact ⟨key, hfirst, hsecond, rfl⟩

/-- Nothing but an annotation repeats before a part of another kind. -/
theorem NodeKey.duplicate_annotations_append {node : NodeId} {l : List AnnotationKey} {last : NodeKey}
    (hlast : last.kind ≠ .annotationUse) (h : List.Duplicate k (annotations node l ++ [last])) :
    List.Duplicate k (annotations node l) := by
  have := List.not_duplicate_singleton k last
  simp only [duplicate_append, List.mem_singleton] at h
  grind

/-! ## Children with several places -/

/-- The type that a function was found to return is among its children. -/
theorem FunctionNode.exists_returnType {w : FunctionNode} {children : List NodeId}
    (h : w.children world.session s = .ok children t) :
    ∃ r, w.returnType world.session t = .ok r t ∧ r.id.node ∈ children := by
  obtain ⟨_, _, _, h⟩ := Action.bind_eq_ok h
  obtain ⟨_, _, _, h⟩ := Action.bind_eq_ok h
  obtain ⟨_, _, _, h⟩ := Action.bind_eq_ok h
  obtain ⟨_, _, _, h⟩ := Action.bind_eq_ok h
  obtain ⟨r, _, hreturn, h⟩ := Action.bind_eq_ok h
  obtain ⟨_, _, hdeclarations, h⟩ := Action.bind_eq_ok h
  cases h
  have hlasting : Lasting world.session (Query.declarationNodes w.declarationKeys) :=
    .of_regular rfl (Query.declarationNodes_regular _)
  have hreturn := (Lasting.of_kept (w.returnType_kept trivial)).again hreturn
    (hlasting.grows hdeclarations)
  exact ⟨r, hreturn, by simp⟩

/-- No wrapper lists a declaration twice. -/
theorem NodeKind.nodup_contents (hlisted : table.ListedOnce) (hgenuine : caches.Genuine table)
    {w : kind.Wrapper} (hw : caches.Issued ((Kind.node kind).idOf w) w) :
    (kind.contents w).Nodup := by
  obtain ⟨key, hlookup⟩ := hgenuine.exists_key hw
  have hmade := hgenuine.made _ hlookup
  let k : NodeKey := ⟨kind, key⟩
  cases kind
  case file =>
    cases hmade with | file id hfile =>
    exact hlisted.declarations hfile
  case classLike | function | property =>
    obtain ⟨symbol, hsymbol, hcontents, _⟩ := Made.symbol (k := k) hmade rfl
    exact hcontents ▸ hlisted.contents hsymbol
  all_goals exact List.nodup_nil

/-- The symbol that a wrapper was made from. -/
def NodeKind.symbol? : (kind : NodeKind) → kind.Wrapper → Option SymbolRecord
  | .classLike, (w : ClassNode) => some w.symbol
  | .function, (w : FunctionNode) => some w.symbol
  | .property, (w : PropertyNode) => some w.symbol
  | .getter, (w : GetterNode) => some w.symbol
  | .setter, (w : SetterNode) => some w.symbol
  | .valueParameter, (w : ValueParameterNode) => some w.symbol
  | .typeParameter, (w : TypeParameterNode) => some w.symbol
  | _, _ => none

/-- No wrapper has an annotation twice from its symbol. -/
theorem SymbolTable.AnnotatedOnce.of_issued (h : table.AnnotatedOnce) (hgenuine : caches.Genuine table)
    {handle : Handle (.node kind)} {w : kind.Wrapper} (hw : caches.Issued handle w)
    {symbol : SymbolRecord} (hsymbol : kind.symbol? w = some symbol) : symbol.annotations.Nodup := by
  obtain ⟨key, hlookup⟩ := hgenuine.exists_key hw
  have hmade := hgenuine.made _ hlookup
  cases kind <;> cases hsymbol <;> cases hmade <;> exact h.symbols (by assumption)

section

variable {children : List NodeId} {child : NodeId}

theorem FunctionNode.twofold_of_children (hs : Tidy world.table s) {w : FunctionNode}
    (hw : s.caches.Issued w.id w) (hcontents : (NodeKind.contents .function w).Nodup)
    (hannotations : ((Declaration.function w).annotationKeys world.table).Nodup)
    (h : w.children world.session s = .ok children s) (hchild : List.Duplicate child children) :
    ∃ k, k.At s.caches child ∧ Twofold world s .function w k := by
  obtain ⟨_, _, keys, hkeys, hshown⟩ := (children_yields hw).of_ok hs h
  obtain ⟨k, hk, hat⟩ := View.exists_duplicate hs.genuine hshown hchild
  refine ⟨k, hat, ?_⟩
  have hnone := hkeys.declaration?_of_duplicate hcontents hk
  rcases hkeys.duplicate_function hannotations hnone hk with
    ⟨type, htype, rfl, honly⟩ | ⟨key, hkey, rfl⟩
  · -- The type returned is the only type among the children.
    obtain ⟨r, hreturn, hmem⟩ := w.exists_returnType h
    obtain ⟨_, _, returned, _, hr⟩ := (returnType_yields hw).of_ok hs hreturn
    obtain ⟨k', hk', hat'⟩ := View.list_exists hshown hmem
    cases hat'.unique (View.found_node hr) hs.genuine
    cases honly _ hk' rfl
    cases hs.genuine.made (.node .typeReference) hr
    exact .returnType hreturn htype
  · exact .parameter hkey

theorem GetterNode.twofold_of_children (hs : Tidy world.table s)
    (hannotations : world.table.AnnotatedOnce) {w : GetterNode} (hw : s.caches.Issued w.id w)
    (h : w.children world.session s = .ok children s) (hchild : List.Duplicate child children) :
    ∃ k, k.At s.caches child ∧ Twofold world s .getter w k := by
  obtain ⟨_, _, property, hproperty, hshown⟩ := (children_keys hw).of_ok hs h
  obtain ⟨k, hk, hat⟩ := View.exists_duplicate hs.genuine hshown hchild
  have hk := NodeKey.duplicate_annotations_append (by nofun) hk
  have hown := hannotations.of_issued hs.genuine hw rfl
  have htaken := hannotations.of_issued hs.genuine hproperty rfl
  obtain ⟨key, hkey, haimed, rfl⟩ := NodeKey.duplicate_aimed (hown.filter _) htaken hk
  exact ⟨_, hat, .getter hproperty (List.mem_of_mem_filter hkey) haimed⟩

theorem SetterNode.twofold_of_children (hs : Tidy world.table s)
    (hannotations : world.table.AnnotatedOnce) {w : SetterNode} (hw : s.caches.Issued w.id w)
    (h : w.children world.session s = .ok children s) (hchild : List.Duplicate child children) :
    ∃ k, k.At s.caches child ∧ Twofold world s .setter w k := by
  obtain ⟨_, _, property, _, hproperty, _, hshown⟩ := (children_keys hw).of_ok hs h
  obtain ⟨k, hk, hat⟩ := View.exists_duplicate hs.genuine hshown hchild
  have hk := NodeKey.duplicate_annotations_append (by nofun) hk
  have hown := hannotations.of_issued hs.genuine hw rfl
  have htaken := hannotations.of_issued hs.genuine hproperty rfl
  obtain ⟨key, hkey, haimed, rfl⟩ := NodeKey.duplicate_aimed (hown.filter _) htaken hk
  exact ⟨_, hat, .setter hproperty (List.mem_of_mem_filter hkey) haimed⟩

theorem ValueParameterNode.twofold_of_children (hs : Tidy world.table s)
    (hannotations : world.table.AnnotatedOnce) {w : ValueParameterNode}
    (hw : s.caches.Issued w.id w) (h : w.children world.session s = .ok children s)
    (hchild : List.Duplicate child children) :
    ∃ k, k.At s.caches child ∧ Twofold world s .valueParameter w k := by
  obtain ⟨_, _, keys, hkeys, hshown⟩ := (children_keys hw).of_ok hs h
  obtain ⟨k, hk, hat⟩ := View.exists_duplicate hs.genuine hshown hchild
  have hk := NodeKey.duplicate_annotations_append (by nofun) hk
  have hown := hannotations.of_issued hs.genuine hw rfl
  cases hkeys with
  | own => exact absurd hk (NodeKey.not_duplicate_annotations _ _ hown)
  | setter hkind hsetter hproperty =>
    have htaken := hannotations.of_issued hs.genuine hproperty rfl
    obtain ⟨key, hkey, haimed, rfl⟩ := NodeKey.duplicate_aimed hown htaken hk
    exact ⟨_, hat, .setterParameter hkind hsetter hproperty hkey haimed⟩

/-- Written arguments have their positions, so only defaults may repeat. -/
theorem AnnotationNode.duplicate_sources {w : AnnotationNode} {keys : List SymbolKey}
    {source : ArgumentSource}
    (h : List.Duplicate source (w.writtenSources ++ keys.map .default)) :
    ∃ key, List.Duplicate key keys ∧ source = .default key := by
  rcases duplicate_append.mp h with h | h | ⟨hwritten, hdefault⟩
  · obtain ⟨position, hposition, _⟩ := exists_duplicate_of_map (fun a b hab => by cases hab; rfl) h
    exact absurd List.nodup_range' hposition.not_nodup
  · obtain ⟨key, hkey, rfl⟩ := exists_duplicate_of_map (fun a b hab => by cases hab; rfl) h
    exact ⟨key, hkey, rfl⟩
  · obtain ⟨_, _, rfl⟩ := List.mem_map.mp hwritten
    obtain ⟨_, _, hsame⟩ := List.mem_map.mp hdefault
    cases hsame

theorem AnnotationNode.twofold_of_children (hs : Tidy world.table s) {w : AnnotationNode}
    (hw : s.caches.Issued w.id w) (h : w.children world.session s = .ok children s)
    (hchild : List.Duplicate child children) :
    ∃ k, k.At s.caches child ∧ Twofold world s .annotationUse w k := by
  obtain ⟨_, _, keys, hkeys, hshown⟩ := (children_keys hw).of_ok hs h
  obtain ⟨k, hk, hat⟩ := View.exists_duplicate hs.genuine hshown hchild
  refine ⟨k, hat, ?_⟩
  have hT := NodeKey.not_duplicate_reference? k w.id.node (world.table.annotationType w.record)
  let argument (source : ArgumentSource) : NodeKey := ⟨.valueArgument, { owner := w.id, source }⟩
  have hkind := NodeKey.kind_of_mem_map (k := k) (f := argument)
    (l := w.writtenSources ++ keys.map ArgumentSource.default) fun _ => rfl
  have hk : List.Duplicate k ((w.writtenSources ++ keys.map ArgumentSource.default).map argument) := by
    simp only [duplicate_append] at hk
    grind
  obtain ⟨source, hsource, rfl⟩ := exists_duplicate_of_map (fun a b hab => by cases hab; rfl) hk
  obtain ⟨key, hkey, rfl⟩ := duplicate_sources hsource
  exact .default (hkey.mono_sublist hkeys)

/-- What stands twice among the children of a wrapper is there in one of these ways. -/
theorem NodeKind.twofold_of_children (hs : Tidy world.table s) (hlisted : world.table.ListedOnce)
    (hannotations : world.table.AnnotatedOnce) {w : kind.Wrapper}
    (hw : s.caches.Issued ((Kind.node kind).idOf w) w)
    (h : kind.children w world.session s = .ok children s) (hchild : List.Duplicate child children) :
    ∃ k, k.At s.caches child ∧ Twofold world s kind w k := by
  obtain ⟨_, _, keys, hkeys, hshown⟩ := (kind.children_yields hw).of_ok hs h
  obtain ⟨k, hk, hat⟩ := View.exists_duplicate hs.genuine hshown hchild
  have hcontents := kind.nodup_contents hlisted hs.genuine hw
  have hnone := hkeys.declaration?_of_duplicate hcontents hk
  have hsymbol {symbol : SymbolRecord} (h : kind.symbol? w = some symbol) :=
    hannotations.of_issued hs.genuine hw h
  cases kind with
  | function =>
    exact FunctionNode.twofold_of_children hs hw hcontents ((hsymbol rfl).filter _) h hchild
  | getter => exact GetterNode.twofold_of_children hs hannotations hw h hchild
  | setter => exact SetterNode.twofold_of_children hs hannotations hw h hchild
  | valueParameter => exact ValueParameterNode.twofold_of_children hs hannotations hw h hchild
  | annotationUse => exact AnnotationNode.twofold_of_children hs hw h hchild
  | property =>
    obtain ⟨htype, rfl⟩ := hkeys.duplicate_property ((hsymbol rfl).filter _) hnone hk
    exact ⟨_, hat, .propertyType htype⟩
  | classifierReference =>
    obtain ⟨type, htype, rfl⟩ := hkeys.duplicate_classifierReference hk
    exact ⟨_, hat, .typeArgument htype⟩
  | callableReference =>
    obtain ⟨type, htype, rfl⟩ := hkeys.duplicate_callableReference hk
    exact ⟨_, hat, .functionalPart htype⟩
  | file =>
    obtain ⟨key, hlookup⟩ := hs.genuine.exists_key hw
    cases hs.genuine.made _ hlookup with | file id hfile =>
    exact absurd hk (hkeys.not_duplicate_file (hannotations.files hfile) hnone)
  | classLike => exact absurd hk (hkeys.not_duplicate_class ((hsymbol rfl).filter _) hnone)
  | typeParameter => exact absurd hk (hkeys.not_duplicate_typeParameter ((hsymbol rfl).filter _))
  | typeReference => exact absurd hk (hkeys.not_duplicate_typeReference hannotations)
  | dynamicReference | valueArgument =>
    cases hkeys
    cases hk

/-- What stands twice among the children of a node is there in one of these ways. -/
theorem NodeId.twofold_of_children (hs : Tidy world.table s) (hlisted : world.table.ListedOnce)
    (hannotations : world.table.AnnotatedOnce) {node : NodeId}
    (h : node.children world.session s = .ok children s) (hchild : List.Duplicate child children) :
    TwofoldUnder world s node child := by
  obtain ⟨w, s', hresolve, h⟩ := Action.bind_eq_ok h
  obtain ⟨hw, rfl⟩ := Query.resolve_eq_ok hresolve
  have hissued : s'.caches.Issued ((Kind.node node.kind).idOf w) w :=
    (hs.genuine.idOf_eq hw).symm ▸ hw
  obtain ⟨k, hat, htwofold⟩ :=
    NodeKind.twofold_of_children hs hlisted hannotations hissued h hchild
  exact ⟨w, k, hw, hat, htwofold⟩

end

end SymbolGraph
