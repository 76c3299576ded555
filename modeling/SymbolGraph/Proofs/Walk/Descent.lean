import SymbolGraph.Proofs.Oracle.Finish
import SymbolGraph.Proofs.Tidy.Below

/-!
# The tree has no infinite path

Under a parent that was not met before, every reference is a new node, so nodes cannot be counted
beforehand. But the keys of the nodes on a path go down. From a reference the way leads to types
further down in the table, or to an annotation; from an annotation it leads to the type of a class,
which is derived, has no annotations and leads only to other derived types. And the symbols on a path
are listed one by the other.
-/

namespace SymbolGraph

variable {d : Draft} {table : SymbolTable}

/-! ## Drafts that do not lead into themselves -/

/-- The symbols that a symbol lists. -/
def SymbolRecord.listed (symbol : SymbolRecord) : List SymbolKey :=
  symbol.contents ++ symbol.accessories

namespace Draft

/-- The first symbol lists the second one. -/
def Lists (d : Draft) (owner key : SymbolKey) : Prop :=
  ∃ symbol, d.symbols[owner.index]? = some symbol ∧ key ∈ symbol.listed

/-- No symbol lists itself, not even by way of others, and types are put together from types that were
added before. -/
structure Acyclic (d : Draft) : Prop where
  symbols : ∀ key, ¬ Relation.TransGen d.Lists key key
  types : ∀ {type : TypeKey} {record : TypeRecord}, d.types[type.index]? = some record →
    ∀ part ∈ record.parts, part.index < type.index

/-- Derived types, too, are put together from types that were added before. -/
theorem Acyclic.parts_lt (h : d.Acyclic) {type : TypeKey} {record : TypeRecord}
    (hrecord : d.finish.types[type.index]? = some record) :
    ∀ part ∈ record.parts, part.index < type.index := by
  intro part hpart
  by_cases htype : d.types.size ≤ type.index
  · exact ((d.finish_derives.derived htype hrecord).parts part hpart).2
  · rw [d.finish_derives.old (Nat.lt_of_not_le htype)] at hrecord
    exact h.types hrecord part hpart

end Draft

/-- The first type is one of those that the second one is put together from. -/
def SymbolTable.PartOf (table : SymbolTable) (part type : TypeKey) : Prop :=
  ∃ record, table.types[type.index]? = some record ∧ part ∈ record.parts

namespace Draft

/-- No symbol lists itself and no type is put together from itself, not even by way of others. -/
structure Loopless (d : Draft) : Prop where
  symbols : ∀ key, ¬ Relation.TransGen d.Lists key key
  types : ∀ type, ¬ Relation.TransGen d.finish.PartOf type type

theorem Acyclic.loopless (h : d.Acyclic) : d.Loopless where
  symbols := h.symbols
  types := not_transGen_self TypeKey.index fun ⟨_, hrecord, hpart⟩ => h.parts_lt hrecord _ hpart

/-- It is enough that every symbol lists later ones. -/
theorem Acyclic.of_lt (hsymbols : ∀ i (h : i < d.symbols.size), ∀ key ∈ d.symbols[i].listed, i < key.index)
    (htypes : ∀ i (h : i < d.types.size), ∀ part ∈ d.types[i].parts, part.index < i) : d.Acyclic where
  symbols := not_transGen_self SymbolKey.index fun {owner key} ⟨symbol, hsymbol, hkey⟩ => by
    obtain ⟨howner, rfl⟩ := Array.getElem?_eq_some_iff.mp hsymbol
    exact hsymbols owner.index howner key hkey
  types {type record} hrecord part hpart := by
    obtain ⟨htype, rfl⟩ := Array.getElem?_eq_some_iff.mp hrecord
    exact htypes type.index htype part hpart

namespace Loopless

theorem wellFounded_lists (h : d.Loopless) : WellFounded fun key owner => d.Lists owner key :=
  wellFounded_of_acyclic SymbolKey.index_injective
    (fun ⟨_, hsymbol, _⟩ => (Array.getElem?_eq_some_iff.mp hsymbol).1) h.symbols

theorem wellFounded_partOf (h : d.Loopless) : WellFounded d.finish.PartOf := by
  have hwf : WellFounded fun part type => flip d.finish.PartOf type part :=
    wellFounded_of_acyclic TypeKey.index_injective
      (fun ⟨_, hrecord, _⟩ => (Array.getElem?_eq_some_iff.mp hrecord).1)
      fun type hloop => h.types type (Relation.transGen_swap.mp hloop)
  exact hwf

end Loopless

end Draft

/-! ## The way down -/

/-- The first key is that of a child that a node with the second key may have. -/
def Under (table : SymbolTable) (below k : NodeKey) : Prop :=
  ∃ (w : k.kind.Wrapper) (keys : List NodeKey),
    Made table (.node k.kind) k.key w ∧ Offspring table k.kind w keys ∧ below ∈ keys

namespace Under

/-- Every way down from a use of this type ends. -/
def TypeEnds (table : SymbolTable) (type : TypeKey) : Prop :=
  ∀ key : TypeReferenceKey, key.type = type → Acc (Under table) (.reference key)

theorem acc_under {types : List TypeKey} {owner : NodeId}
    (h : ∀ type ∈ types, TypeEnds table type) {below : NodeKey}
    (hbelow : below ∈ (types.map (·.under owner)).map NodeKey.reference) :
    Acc (Under table) below := by
  obtain ⟨_, hkey, rfl⟩ := List.mem_map.mp hbelow
  obtain ⟨type, htype, rfl⟩ := List.mem_map.mp hkey
  exact h type htype _ rfl

theorem acc_reference? {type : Option TypeKey} {owner : NodeId}
    (h : ∀ known ∈ type, TypeEnds table known) {below : NodeKey}
    (hbelow : below ∈ NodeKey.reference? owner type) : Acc (Under table) below := by
  rw [NodeKey.reference?, Option.toList_map] at hbelow
  exact acc_under (fun known hknown => h known (Option.mem_toList.mp hknown)) hbelow

/-! ### Elements -/

theorem acc_dynamicReference (key : TypeReferenceId) :
    Acc (Under table) ⟨.dynamicReference, key⟩ := by
  refine ⟨_, ?_⟩
  rintro below ⟨w, keys, _, hkeys, hbelow⟩
  cases hkeys
  cases hbelow

theorem acc_classifierReference {key : ElementKey}
    (h : ∀ {record : TypeRecord}, table.types[key.type.index]? = some record →
      ∀ part ∈ record.parts, TypeEnds table part) :
    Acc (Under table) ⟨.classifierReference, key⟩ := by
  refine ⟨_, ?_⟩
  rintro below ⟨w, keys, hmade, hkeys, hbelow⟩
  cases hmade with | classifierReference owner origin id hrecord hshape =>
  cases hkeys
  refine acc_under (fun part hpart => h hrecord part ?_) hbelow
  rw [TypeRecord.parts, hshape]
  exact hpart

theorem acc_callableReference {key : ElementKey}
    (h : ∀ {record : TypeRecord}, table.types[key.type.index]? = some record →
      ∀ part ∈ record.parts, TypeEnds table part) :
    Acc (Under table) ⟨.callableReference, key⟩ := by
  refine ⟨_, ?_⟩
  rintro below ⟨w, keys, hmade, hkeys, hbelow⟩
  cases hmade with | @callableReference _ _ shape owner origin id hrecord hshape =>
  have hparts {part : TypeKey} (hpart : part ∈ shape.receiver.toList ++ shape.parameters ++
      [shape.returnType]) : TypeEnds table part := by
    refine h hrecord part ?_
    rw [TypeRecord.parts, hshape]
    simp only [List.append_assoc] at hpart ⊢
    exact List.mem_append_right _ hpart
  cases hkeys
  simp only [List.mem_append, or_assoc] at hbelow
  rcases hbelow with hbelow | hbelow | hbelow
  · refine acc_reference? (fun part hpart => hparts ?_) hbelow
    exact List.mem_append_left _ (List.mem_append_left _ (Option.mem_toList.mpr hpart))
  · refine acc_under (fun part hpart => hparts ?_) hbelow
    exact List.mem_append_left _ (List.mem_append_right _ hpart)
  · cases List.mem_singleton.mp hbelow
    exact hparts (List.mem_append_right _ (List.mem_singleton_self _)) _ rfl

/-! ### References -/

/-- If annotations do not lead on forever, and neither do types, then references do not lead on
forever. -/
theorem typeEnds (leads : TypeKey → Prop)
    (h : ∀ {type : TypeKey} {record : TypeRecord}, leads type →
      table.types[type.index]? = some record →
      (∀ key ∈ record.annotations, ∀ bearer, Acc (Under table) ⟨.annotationUse, key.on bearer⟩) ∧
        ∀ part ∈ record.parts, leads part)
    {type : TypeKey} (hends : Acc table.PartOf type) (htype : leads type) : TypeEnds table type := by
  replace hends := hends.transGen
  induction hends with
  | intro type _ hdown =>
    rintro key rfl
    refine ⟨_, ?_⟩
    rintro below ⟨w, keys, hmade, hkeys, hbelow⟩
    cases hmade with | typeReference type parent index origin id =>
    cases hkeys with | typeReference _ hrecord helement =>
    obtain ⟨hannotations, hparts⟩ := h htype hrecord
    have hown {record : TypeRecord} (hrecord : table.types[type.index]? = some record)
        (part : TypeKey) (hpart : part ∈ record.parts) : TypeEnds table part :=
      hdown part (.single ⟨record, hrecord, hpart⟩) ((h htype hrecord).2 part hpart)
    rcases List.mem_append.mp hbelow with hbelow | hbelow
    · obtain ⟨_, hused, rfl⟩ := List.mem_map.mp hbelow
      obtain ⟨key, hkey, rfl⟩ := List.mem_map.mp hused
      exact hannotations key hkey _
    · cases helement with
      | none => cases hbelow
      | classifier =>
        cases List.mem_singleton.mp hbelow
        exact acc_classifierReference hown
      | callable =>
        cases List.mem_singleton.mp hbelow
        exact acc_callableReference hown
      | dynamic =>
        cases List.mem_singleton.mp hbelow
        exact acc_dynamicReference _
      | @bound record lower _ hrecord' hshape =>
        cases hrecord.symm.trans hrecord'
        have hlower : table.PartOf lower type :=
          ⟨_, hrecord, by rw [TypeRecord.parts, hshape]; exact .head _⟩
        cases List.mem_singleton.mp hbelow
        -- The element shows the parts of the bound.
        refine acc_classifierReference fun {bound} hbound part hpart => ?_
        have hleads : leads part := by
          obtain ⟨record, hrecord, hlower⟩ := hlower
          exact (h ((h htype hrecord).2 lower hlower) hbound).2 part hpart
        exact hdown part (.tail (.single ⟨bound, hbound, hpart⟩) hlower) hleads

/-! ### Drafts -/

/-- Derived types lead only to derived types. -/
theorem typeEnds_derived (h : d.Loopless) {type : TypeKey} (htype : d.types.size ≤ type.index) :
    TypeEnds d.finish type := by
  refine typeEnds (d.types.size ≤ ·.index) (fun {type record} htype hrecord => ?_)
    (h.wellFounded_partOf.apply type) htype
  obtain ⟨hannotations, hparts⟩ := d.finish_derives.derived htype hrecord
  refine ⟨fun key hkey => ?_, fun part hpart => (hparts part hpart).1⟩
  rw [hannotations] at hkey
  cases hkey

theorem acc_valueArgument (key : ArgumentKey) : Acc (Under table) ⟨.valueArgument, key⟩ := by
  refine ⟨_, ?_⟩
  rintro below ⟨w, keys, _, hkeys, hbelow⟩
  cases hkeys
  cases hbelow

/-- The type of an annotation is derived, whatever the type that bears the annotation. -/
theorem acc_annotationUse (h : d.Loopless) (key : AnnotationUseKey) :
    Acc (Under d.finish) ⟨.annotationUse, key⟩ := by
  refine ⟨_, ?_⟩
  rintro below ⟨w, keys, _, hkeys, hbelow⟩
  cases hkeys with | annotationUse _ sources =>
  rcases List.mem_append.mp hbelow with hbelow | hbelow
  · refine acc_reference? (fun type htype => typeEnds_derived h ?_) hbelow
    obtain ⟨name, _, htype⟩ := Option.bind_eq_some_iff.mp htype
    obtain ⟨key, _, htype⟩ := Option.bind_eq_some_iff.mp htype
    obtain ⟨types, htypes, htype⟩ := Option.bind_eq_some_iff.mp htype
    cases htype
    exact d.finish_own htypes
  · obtain ⟨_, _, rfl⟩ := List.mem_map.mp hbelow
    exact acc_valueArgument _

theorem acc_reference (h : d.Loopless) (key : TypeReferenceKey) :
    Acc (Under d.finish) (.reference key) := by
  refine typeEnds (fun _ => True) (fun _ _ => ?_) (h.wellFounded_partOf.apply key.type) trivial key rfl
  exact ⟨fun key _ bearer => acc_annotationUse h _, fun _ _ => trivial⟩

/-- What is below a symbol or a file ends if what it lists ends. -/
theorem acc_below (h : d.Loopless) {node : NodeId} {contents accessories : List SymbolKey}
    (hnode : ¬ (node.kind = .typeReference ∨ node.kind = .annotationUse))
    (hlisted : ∀ key ∈ contents ++ accessories, ∀ k : NodeKey, k.symbol? = some key →
      Acc (Under d.finish) k) {below : NodeKey} (hbelow : below.Below node contents accessories) :
    Acc (Under d.finish) below := by
  cases hbelow with
  | annotationUse key => exact acc_annotationUse h _
  | reference => exact acc_reference h _
  | part hkind => exact absurd hkind hnode
  | accessory hkey hsymbol => exact hlisted _ (List.mem_append_right _ hkey) _ hsymbol
  | declaration hkey hdeclaration =>
    exact hlisted _ (List.mem_append_left _ hkey) _ (NodeKey.symbol?_of_declaration? hdeclaration)

theorem acc_symbol (h : d.Loopless) (key : SymbolKey) :
    ∀ k : NodeKey, k.symbol? = some key → Acc (Under d.finish) k := by
  induction h.wellFounded_lists.apply key with
  | intro key _ ih =>
    intro k hk
    refine ⟨_, ?_⟩
    rintro below ⟨w, keys, hmade, hkeys, hbelow⟩
    obtain ⟨symbol, hsymbol, hcontents, haccessories⟩ := hmade.symbol hk
    refine acc_below h ?_ (fun listed hlisted => ih listed ⟨symbol, hsymbol, ?_⟩)
      (hkeys.below hbelow)
    · rintro (hkind | hkind) <;> obtain ⟨kind, _⟩ := k <;> cases hkind <;> cases hk
    · rw [SymbolRecord.listed, ← hcontents, ← haccessories]
      exact hlisted

/-- There is no infinite way down. -/
theorem wellFounded_of_loopless (h : d.Loopless) : WellFounded (Under d.finish) := by
  refine ⟨fun k => ?_⟩
  cases hk : k.symbol? with
  | some key => exact acc_symbol h key k hk
  | none =>
    obtain ⟨kind, key⟩ := k
    cases kind
    case file =>
      refine ⟨_, ?_⟩
      rintro below ⟨w, keys, _, hkeys, hbelow⟩
      refine acc_below h ?_ (fun listed _ => acc_symbol h listed) (hkeys.below hbelow)
      rintro (hkind | hkind) <;> cases hkind
    case typeReference => exact acc_reference h key
    case classifierReference =>
      exact acc_classifierReference fun _ _ _ key _ => acc_reference h key
    case callableReference =>
      exact acc_callableReference fun _ _ _ key _ => acc_reference h key
    case dynamicReference => exact acc_dynamicReference key
    case annotationUse => exact acc_annotationUse h key
    case valueArgument => exact acc_valueArgument key
    all_goals cases hk

theorem wellFounded (h : d.Acyclic) : WellFounded (Under d.finish) :=
  wellFounded_of_loopless h.loopless

end Under

end SymbolGraph
