import SymbolGraph.Proofs.Tidy.Parent

/-!
# Lists of declarations

Where a declaration is listed, and how the lists in a table turn up among the children of nodes.
-/

namespace SymbolGraph

variable {world : World} {table : SymbolTable} {kind : NodeKind} {key : SymbolKey}

/-! ## Listing once -/

namespace SymbolTable

/-- The top-level declarations, file by file. -/
def topLevel (table : SymbolTable) : List SymbolKey := table.files.toList.flatMap (·.declarations)

/-- No declaration has two places in the lists of files and symbols. -/
def ListedOnce (table : SymbolTable) : Prop :=
  (table.topLevel ++ table.symbols.toList.flatMap SymbolRecord.contents).Nodup

instance (table : SymbolTable) : Decidable table.ListedOnce := inferInstanceAs (Decidable (List.Nodup _))

namespace ListedOnce

variable {symbol other : SymbolRecord} {owner rival : SymbolKey}

theorem topLevel (h : table.ListedOnce) : table.topLevel.Nodup := (List.nodup_append.mp h).1

theorem declarations (h : table.ListedOnce) {file : FileKey} {record : FileRecord}
    (hfile : table.files[file.index]? = some record) : record.declarations.Nodup := by
  have hmem : record ∈ table.files.toList := by
    rw [← Array.getElem?_toList] at hfile
    exact List.mem_of_getElem? hfile
  exact (List.nodup_flatMap.mp h.topLevel).1 record hmem

theorem contents (h : table.ListedOnce) (hsymbol : table.symbols[owner.index]? = some symbol) :
    symbol.contents.Nodup := by
  rw [← Array.getElem?_toList] at hsymbol
  exact (List.nodup_flatMap.mp (List.nodup_append.mp h).2.1).1 symbol (List.mem_of_getElem? hsymbol)

/-- What stands in a file does not stand in a symbol. -/
theorem not_mem_topLevel (h : table.ListedOnce) (hsymbol : table.symbols[owner.index]? = some symbol)
    (hkey : key ∈ symbol.contents) : key ∉ table.topLevel := by
  rw [← Array.getElem?_toList] at hsymbol
  have hmem : key ∈ table.symbols.toList.flatMap SymbolRecord.contents :=
    List.mem_flatMap.mpr ⟨symbol, List.mem_of_getElem? hsymbol, hkey⟩
  exact fun htop => (List.nodup_append.mp h).2.2 key htop key hmem rfl

/-- Nothing stands in two symbols. -/
theorem owner_unique (h : table.ListedOnce) (hsymbol : table.symbols[owner.index]? = some symbol)
    (hother : table.symbols[rival.index]? = some other) (hkey : key ∈ symbol.contents)
    (hkey' : key ∈ other.contents) : owner = rival := by
  have hpairwise := (List.nodup_flatMap.mp (List.nodup_append.mp h).2.1).2
  rw [← Array.getElem?_toList] at hsymbol hother
  obtain ⟨hi, rfl⟩ := List.getElem?_eq_some_iff.mp hsymbol
  obtain ⟨hj, rfl⟩ := List.getElem?_eq_some_iff.mp hother
  have hapart := List.pairwise_iff_getElem.mp hpairwise
  rcases Nat.lt_trichotomy owner.index rival.index with hlt | heq | hlt
  · exact absurd hkey' (hapart _ _ hi hj hlt hkey)
  · cases owner
    cases rival
    cases heq
    rfl
  · exact absurd hkey (hapart _ _ hj hi hlt hkey')

end ListedOnce

end SymbolTable

/-! ## Declarations among children -/

namespace NodeKind

/-- The type parameters of a wrapper. -/
def typeParameterKeys : (kind : NodeKind) → kind.Wrapper → List SymbolKey
  | .classLike, (w : ClassNode) => w.details.typeParameters
  | .function, (w : FunctionNode) => w.details.typeParameters
  | .property, (w : PropertyNode) => w.details.typeParameters
  | _, _ => []

/-- What is declared in a wrapper, and is looked up each time. -/
def declarationKeys : (kind : NodeKind) → kind.Wrapper → List SymbolKey
  | .file, (w : FileNode) => w.file.declarations
  | .classLike, (w : ClassNode) => w.declarationKeys
  | .function, (w : FunctionNode) => w.declarationKeys
  | _, _ => []

theorem contents_eq (kind : NodeKind) (w : kind.Wrapper) :
    kind.contents w = kind.typeParameterKeys w ++ kind.declarationKeys w := by
  cases kind <;> first | rfl | exact (List.append_nil _).symm

end NodeKind

namespace NodeKey

variable {node : NodeId}

theorem filterMap_none {α : Type} {make : α → NodeKey} (h : ∀ a, (make a).declaration? = none)
    (l : List α) : (l.map make).filterMap declaration? = [] := by
  rw [List.filterMap_map]
  exact List.filterMap_eq_nil_iff.mpr fun a _ => h a

@[simp] theorem filterMap_annotations (keys : List AnnotationKey) :
    (annotations node keys).filterMap declaration? = [] := filterMap_none (fun _ => rfl) _

@[simp] theorem filterMap_references (keys : List TypeReferenceKey) :
    (keys.map reference).filterMap declaration? = [] := filterMap_none (fun _ => rfl) _

@[simp] theorem filterMap_reference? (type : Option TypeKey) :
    (reference? node type).filterMap declaration? = [] := filterMap_references _

@[simp] theorem filterMap_typeParameters (keys : List SymbolKey) :
    (typeParameters keys).filterMap declaration? = keys := by
  rw [typeParameters, List.filterMap_map]
  exact List.filterMap_some

@[simp] theorem filterMap_declared (keys : List SymbolKey) :
    (keys.filterMap table.declared).filterMap declaration? =
      keys.filter fun key => (table.declared key).isSome := by
  rw [List.filterMap_filterMap, ← List.filterMap_eq_filter]
  refine List.filterMap_congr fun key _ => ?_
  cases hkey : table.declared key with
  | none => simp [Option.guard, hkey]
  | some k => simp [Option.guard, hkey, declaration?_of_declared hkey]

end NodeKey

/-- The declarations among the children of a wrapper are its type parameters, and what is declared in
it as far as the table knows it. -/
theorem Offspring.filterMap_declaration? {w : kind.Wrapper} {keys : List NodeKey}
    (h : Offspring table kind w keys) :
    keys.filterMap NodeKey.declaration? = kind.typeParameterKeys w ++
      (kind.declarationKeys w).filter fun key => (table.declared key).isSome := by
  cases h <;> try simp only [List.filterMap_append, NodeKey.filterMap_annotations,
    NodeKey.filterMap_typeParameters, NodeKey.filterMap_references, NodeKey.filterMap_reference?,
    NodeKey.filterMap_declared, List.nil_append, List.append_nil]
  case file | classLike | classifierReference | dynamicReference | valueArgument => rfl
  case getter | setter | valueParameter | typeParameter | callableReference => rfl
  case function w _ =>
    rw [NodeKey.filterMap_none fun _ => rfl, List.append_nil]
    exact congrArg (· ++ _) (List.append_nil _)
  case property w =>
    rw [NodeKey.filterMap_none fun _ => rfl, NodeKey.filterMap_none fun _ => rfl, List.append_nil,
      List.append_nil]
    rfl
  case typeReference helement => cases helement <;> rfl
  case annotationUse w sources => exact NodeKey.filterMap_none (fun _ => rfl) sources

/-! ## Declarations that are found -/

theorem Query.declared_of_declaration {s t : SessionState ReturnTypes} {d : Declaration}
    (h : Query.declaration key world.session s = .ok d t) : (world.table.declared key).isSome := by
  obtain ⟨symbol, s', hrequest, h⟩ := Action.bind_eq_ok h
  have hsymbol : world.table.symbols[key.index]? = some symbol :=
    Inquiry.told_of_request (i := .symbol key) hrequest
  cases hdetails : symbol.details <;> rw [hdetails] at h <;>
    first | cases h | simp [SymbolTable.declared, hsymbol, hdetails]

theorem Query.declared_of_declarationNodes {keys : List SymbolKey}
    {s t : SessionState ReturnTypes} {nodes : List NodeId}
    (h : Query.declarationNodes keys world.session s = .ok nodes t) :
    ∀ key ∈ keys, (world.table.declared key).isSome := by
  unfold declarationNodes at h
  induction keys generalizing s t nodes with
  | nil => exact fun key hkey => absurd hkey List.not_mem_nil
  | cons first keys ih =>
    rw [List.mapM_cons] at h
    obtain ⟨_, _, hfirst, h⟩ := Action.bind_eq_ok h
    obtain ⟨_, _, hdeclaration, _⟩ := Action.bind_eq_ok hfirst
    obtain ⟨_, _, hrest, _⟩ := Action.bind_eq_ok h
    intro key hkey
    rcases List.mem_cons.mp hkey with rfl | hkey
    · exact declared_of_declaration hdeclaration
    · exact ih hrest key hkey

/-- A node has children only if the table knows everything that is declared in it. -/
theorem NodeKind.declared_of_children {w : kind.Wrapper} {s t : SessionState ReturnTypes}
    {children : List NodeId} (h : kind.children w world.session s = .ok children t) :
    ∀ key ∈ kind.declarationKeys w, (world.table.declared key).isSome := by
  cases kind
  case file =>
    obtain ⟨_, _, _, h⟩ := Action.bind_eq_ok h
    obtain ⟨_, _, hdeclarations, _⟩ := Action.bind_eq_ok h
    exact Query.declared_of_declarationNodes hdeclarations
  case classLike =>
    obtain ⟨_, _, _, h⟩ := Action.bind_eq_ok h
    obtain ⟨_, _, _, h⟩ := Action.bind_eq_ok h
    obtain ⟨_, _, _, h⟩ := Action.bind_eq_ok h
    obtain ⟨_, _, hdeclarations, _⟩ := Action.bind_eq_ok h
    exact Query.declared_of_declarationNodes hdeclarations
  case function =>
    obtain ⟨_, _, _, h⟩ := Action.bind_eq_ok h
    obtain ⟨_, _, _, h⟩ := Action.bind_eq_ok h
    obtain ⟨_, _, _, h⟩ := Action.bind_eq_ok h
    obtain ⟨_, _, _, h⟩ := Action.bind_eq_ok h
    obtain ⟨_, _, _, h⟩ := Action.bind_eq_ok h
    obtain ⟨_, _, hdeclarations, _⟩ := Action.bind_eq_ok h
    exact Query.declared_of_declarationNodes hdeclarations
  all_goals exact fun key hkey => absurd hkey List.not_mem_nil

/-- The declarations among the children that a wrapper was found to have are those that it lists. -/
theorem Offspring.filterMap_declaration?_of_children {w : kind.Wrapper} {keys : List NodeKey}
    (h : Offspring world.table kind w keys) {s t : SessionState ReturnTypes}
    {children : List NodeId} (hok : kind.children w world.session s = .ok children t) :
    keys.filterMap NodeKey.declaration? = kind.contents w := by
  rw [h.filterMap_declaration?, kind.contents_eq]
  exact congrArg (kind.typeParameterKeys w ++ ·)
    (List.filter_eq_self.mpr (NodeKind.declared_of_children hok))

end SymbolGraph
