import SymbolGraph.Proofs.Oracle.Finish

/-!
# Answers of finished drafts

Finishing a draft lays out the types of each class in a block of its own: one type for each type parameter,
the type of the class with these as arguments, and its type with stars. The blocks follow one another after
the types of the draft, so no type serves two purposes, and whatever was added keeps its key.
-/

namespace SymbolGraph

/-! ## Constant answers -/

/-- The reply to a question in every state, which it leaves alone. -/
def Replies {σ α : Type} (question : StateM σ α) (reply : α) : Prop :=
  ∀ state, question state = (reply, state)

theorem Replies.unique {σ α : Type} [Inhabited σ] {question : StateM σ α} {reply reply' : α}
    (h : Replies question reply) (h' : Replies question reply') : reply = reply' :=
  congrArg Prod.fst ((h default).symm.trans (h' default))

instance : Inhabited ReturnTypes := ⟨{}⟩

theorem SymbolTable.replies_answer {α : Type} {found : Option α} {missing : OracleError} {a : α} :
    Replies (answer found missing) (.ok a) ↔ found = some a := by
  constructor
  · intro h
    have hreply := congrArg Prod.fst (h {})
    cases found with
    | none => cases hreply
    | some b => exact congrArg some (Except.ok.inj hreply)
  · rintro rfl _
    rfl

theorem SymbolTable.replies_pure {α : Type} {a b : α} :
    Replies (pure a : StateM ReturnTypes α) b ↔ a = b :=
  ⟨fun h => congrArg Prod.fst (h {}), fun h _ => congrArg (·, _) h⟩

/-! ## Blocks of derived types -/

/-- The types of one class, the first of them being that of the first type parameter. -/
structure TypeBlock where
  first : Nat
  parameters : List SymbolKey
  name : String

/-- What a derived type is for. -/
inductive TypeRole
  | own
  | star
  /-- The argument for one of the type parameters. -/
  | argument (position : Nat)

namespace TypeBlock

def position (b : TypeBlock) : TypeRole → Nat
  | .own => b.first + b.parameters.length
  | .star => b.first + b.parameters.length + 1
  | .argument i => b.first + i

/-- The position after the block. -/
def next (b : TypeBlock) : Nat := b.first + b.parameters.length + 2

def arguments (b : TypeBlock) : List (TypeArgument TypeKey) :=
  (List.range b.parameters.length).map fun i => .projection .invariant ⟨b.first + i⟩

def types (b : TypeBlock) : ClassTypes := ⟨⟨b.position .own⟩, ⟨b.position .star⟩⟩

/-- The role calls for a type of the block. -/
def Fills (b : TypeBlock) : TypeRole → Prop
  | .argument i => i < b.parameters.length
  | _ => True

/-- The shapes in a block. -/
def shapes (b : TypeBlock) : List TypeShape :=
  b.parameters.map .typeParameter ++
    [.classType b.name b.arguments, .classType b.name (b.parameters.map fun _ => .star)]

/-- The block stands among the types. -/
def In (b : TypeBlock) (types : Array TypeRecord) : Prop :=
  ∀ i shape, b.shapes[i]? = some shape →
    ∃ record, types[b.first + i]? = some record ∧ record.shape = shape

variable {b : TypeBlock} {types types' : Array TypeRecord} {role role' : TypeRole}

theorem position_bounds (h : b.Fills role) : b.first ≤ b.position role ∧ b.position role < b.next := by
  cases role <;> simp only [Fills, position, next] at h ⊢ <;> omega

/-- Within a block no type has two roles. -/
theorem position_injective (h : b.Fills role) (h' : b.Fills role')
    (heq : b.position role = b.position role') : role = role' := by
  cases role <;> cases role' <;> simp only [Fills, position] at h h' heq <;>
    first | rfl | omega | (congr 1; omega)

namespace In

theorem mono (h : b.In types)
    (hkept : ∀ {i : Nat} {record}, types[i]? = some record → types'[i]? = some record) :
    b.In types' := by
  intro i shape hshape
  obtain ⟨record, hrecord, heq⟩ := h i shape hshape
  exact ⟨record, hkept hrecord, heq⟩

theorem argument (h : b.In types) {i : Nat} {p : SymbolKey} (hp : b.parameters[i]? = some p) :
    ∃ record, types[b.position (.argument i)]? = some record ∧ record.shape = .typeParameter p := by
  refine h i _ ?_
  have hi := (List.getElem?_eq_some_iff.mp hp).1
  rw [shapes, List.getElem?_append_left (by simpa using hi), List.getElem?_map, hp]
  rfl

theorem own (h : b.In types) : ∃ record, types[b.position .own]? = some record ∧
    record.shape = .classType b.name b.arguments := by
  refine h b.parameters.length _ ?_
  simp [shapes]

theorem star (h : b.In types) : ∃ record, types[b.position .star]? = some record ∧
    record.shape = .classType b.name (b.parameters.map fun _ => .star) := by
  refine h (b.parameters.length + 1) _ ?_
  simp [shapes]

end In

theorem length_arguments (b : TypeBlock) : b.arguments.length = b.parameters.length := by
  simp [arguments]

theorem getElem?_arguments {i : Nat} (h : i < b.parameters.length) :
    b.arguments[i]? = some (.projection .invariant ⟨b.position (.argument i)⟩) := by
  simp [arguments, position, h]

end TypeBlock

/-! ## Laying out the blocks -/

namespace Draft

variable {d : Draft} {key : SymbolKey}

/-- The block that is added for a class. -/
def Derived.block (derived : Derived) (parameters : List SymbolKey) (name : String) : TypeBlock :=
  ⟨derived.types.size, parameters, name⟩

/-- The types of a class are added at the end, in the order of its block. -/
theorem Derived.addClass_types (symbols : Array SymbolRecord) (derived : Derived) (key : SymbolKey)
    (short : String) (parameters : List SymbolKey) (name : String) :
    ∃ records : List TypeRecord,
      (derived.addClass symbols key short parameters name).types.toList =
        derived.types.toList ++ records ∧
      records.map TypeRecord.shape = (derived.block parameters name).shapes := by
  simp only [Derived.addClass, Array.toList_push, Array.appendList_eq_append,
    Array.toList_appendList, List.append_assoc]
  refine ⟨_, rfl, ?_⟩
  simp [TypeBlock.shapes, Derived.block, TypeBlock.arguments]

theorem Derived.addClass_lays (symbols : Array SymbolRecord) (derived : Derived) (key : SymbolKey)
    (short : String) (parameters : List SymbolKey) (name : String) :
    let after := derived.addClass symbols key short parameters name
    let b := derived.block parameters name
    after.types.size = b.next ∧ b.In after.types ∧
      ∀ {i : Nat} {record : TypeRecord}, derived.types[i]? = some record →
        after.types[i]? = some record := by
  intro after b
  obtain ⟨records, htypes, hshapes⟩ := derived.addClass_types symbols key short parameters name
  refine ⟨?_, fun i shape hshape => ?_, fun {i record} hrecord => ?_⟩
  · have hlength : records.length = parameters.length + 2 := by
      simpa [TypeBlock.shapes, Derived.block] using congrArg List.length hshapes
    rw [← Array.length_toList, htypes, List.length_append, Array.length_toList, hlength]
    rfl
  · rw [← hshapes, List.getElem?_map] at hshape
    obtain ⟨record, hrecord, hshape⟩ := Option.map_eq_some_iff.mp hshape
    have hle : derived.types.toList.length ≤ b.first + i := Nat.le_add_right _ _
    refine ⟨record, ?_, hshape⟩
    rw [← Array.getElem?_toList, htypes, List.getElem?_append_right hle]
    simpa [b, Derived.block] using hrecord
  · rw [← Array.getElem?_toList] at hrecord ⊢
    rw [htypes, List.getElem?_append_left (List.getElem?_eq_some_iff.mp hrecord).1, hrecord]

/-- The blocks that were laid out for the first symbols, with the classes they are for. -/
structure Ledger (d : Draft) (count : Nat) (derived : Derived) (blocks : List (SymbolKey × TypeBlock)) :
    Prop where
  size_le : d.types.size ≤ derived.types.size
  describes : ∀ {key : SymbolKey} {b : TypeBlock}, (key, b) ∈ blocks → key.index < count ∧
    qualifiedClassName d.symbols key = some b.name ∧ ∃ symbol details,
      d.symbols[key.index]? = some symbol ∧ symbol.details = .classLike details ∧
      details.typeParameters = b.parameters
  placed : ∀ {key : SymbolKey} {b : TypeBlock}, (key, b) ∈ blocks →
    d.types.size ≤ b.first ∧ b.next ≤ derived.types.size ∧ b.In derived.types
  apart : blocks.Pairwise fun entry entry' => entry.2.next ≤ entry'.2.first
  classTypes : ∀ {key : SymbolKey} {types : ClassTypes}, derived.classTypes[key]? = some types ↔
    ∃ b, (key, b) ∈ blocks ∧ b.types = types

namespace Ledger

variable {count : Nat} {derived : Derived} {blocks : List (SymbolKey × TypeBlock)}

theorem start (d : Draft) : d.Ledger 0 { types := d.types } [] where
  size_le := Nat.le_refl _
  describes h := by cases h
  placed h := by cases h
  apart := List.Pairwise.nil
  classTypes := by simp

theorem skip (h : d.Ledger count derived blocks) : d.Ledger (count + 1) derived blocks where
  size_le := h.size_le
  describes hmem := ⟨Nat.lt_succ_of_lt (h.describes hmem).1, (h.describes hmem).2⟩
  placed := h.placed
  apart := h.apart
  classTypes := h.classTypes

theorem addClass (h : d.Ledger count derived blocks) {name : String} {symbol : SymbolRecord}
    {details : ClassDetails} (hname : qualifiedClassName d.symbols ⟨count⟩ = some name)
    (hsymbol : d.symbols[count]? = some symbol) (hdetails : symbol.details = .classLike details) :
    d.Ledger (count + 1)
      (derived.addClass d.symbols ⟨count⟩ symbol.displayName details.typeParameters name)
      (blocks ++ [(⟨count⟩, derived.block details.typeParameters name)]) := by
  obtain ⟨hsize, hin, hkept⟩ :=
    derived.addClass_lays d.symbols ⟨count⟩ symbol.displayName details.typeParameters name
  have hle : derived.types.size ≤ (derived.block details.typeParameters name).next := by
    simp only [Derived.block, TypeBlock.next]
    omega
  constructor
  · rw [hsize]
    exact Nat.le_trans h.size_le hle
  · intro key b hmem
    rcases List.mem_append.mp hmem with hmem | hmem
    · exact h.skip.describes hmem
    · cases List.mem_singleton.mp hmem
      exact ⟨Nat.lt_succ_self _, hname, symbol, details, hsymbol, hdetails, rfl⟩
  · intro key b hmem
    rcases List.mem_append.mp hmem with hmem | hmem
    · obtain ⟨hfirst, hnext, hlaid⟩ := h.placed hmem
      rw [hsize]
      exact ⟨hfirst, Nat.le_trans hnext hle, hlaid.mono hkept⟩
    · cases List.mem_singleton.mp hmem
      exact ⟨h.size_le, Nat.le_of_eq hsize.symm, hin⟩
  · -- The earlier blocks end where the new one begins.
    refine List.pairwise_append.mpr ⟨h.apart, List.pairwise_singleton _ _, fun entry hmem new hnew => ?_⟩
    cases List.mem_singleton.mp hnew
    exact (h.placed hmem).2.1
  · intro key types
    simp only [Derived.addClass, Std.TreeMap.getElem?_insert, Std.LawfulEqCmp.compare_eq_iff_eq]
    split
    · -- The class has no block yet.
      rename_i heq
      subst heq
      constructor
      · rintro ⟨⟩
        exact ⟨_, List.mem_append_right _ (List.mem_singleton_self _), rfl⟩
      · rintro ⟨b, hmem, rfl⟩
        rcases List.mem_append.mp hmem with hmem | hmem
        · exact absurd (h.describes hmem).1 (Nat.lt_irrefl _)
        · cases List.mem_singleton.mp hmem
          rfl
    · rename_i hne
      refine h.classTypes.trans (exists_congr fun b => and_congr_left fun _ => ?_)
      rw [List.mem_append, List.mem_singleton, Prod.mk.injEq]
      exact ⟨.inl, fun hmem => hmem.resolve_right fun heq => hne heq.1.symm⟩

/-- Two classes have nothing in common, and the types of a class have each one role. -/
theorem unique (h : d.Ledger count derived blocks) {key key' : SymbolKey} {b b' : TypeBlock}
    {role role' : TypeRole} (hmem : (key, b) ∈ blocks) (hmem' : (key', b') ∈ blocks)
    (hrole : b.Fills role) (hrole' : b'.Fills role') (heq : b.position role = b'.position role') :
    key = key' ∧ role = role' := by
  let Apart : SymbolKey × TypeBlock → SymbolKey × TypeBlock → Prop := fun entry entry' =>
    entry.2.next ≤ entry'.2.first ∨ entry'.2.next ≤ entry.2.first
  have hsymm : Std.Symm Apart := ⟨fun _ _ => Or.symm⟩
  have hapart : blocks.Pairwise Apart := h.apart.imp .inl
  by_cases hsame : (key, b) = (key', b')
  · cases hsame
    exact ⟨rfl, TypeBlock.position_injective hrole hrole' heq⟩
  · -- The blocks of two classes lie apart, and each role has its position within its block.
    have hbounds := TypeBlock.position_bounds hrole
    have hbounds' := TypeBlock.position_bounds hrole'
    have hdisjoint := hapart.forall hmem hmem' hsame
    simp only [Apart] at hdisjoint
    omega

end Ledger

theorem exists_ledger (d : Draft) :
    ∃ blocks, d.Ledger d.symbols.size (d.derived d.symbols.size) blocks := by
  refine d.derived_induction (P := fun count derived => ∃ blocks, d.Ledger count derived blocks)
    ⟨[], .start d⟩ ?_ ?_
  · rintro _ _ ⟨blocks, h⟩ _
    exact ⟨blocks, h.skip⟩
  · rintro _ _ _ _ _ ⟨blocks, h⟩ hname hsymbol hdetails
    exact ⟨_, h.addClass hname hsymbol hdetails⟩

/-! ## Answers about finished drafts -/

theorem finish_types_of_derived {i : Nat} {record : TypeRecord}
    (h : (d.derived d.symbols.size).types[i]? = some record) : d.finish.types[i]? = some record := by
  change (if d.withoutReturnType = [] then (d.derived d.symbols.size).types
    else (d.derived d.symbols.size).types.push (.ofClass "kotlin.Unit"))[i]? = _
  split
  · exact h
  · have hlt := (Array.getElem?_eq_some_iff.mp h).1
    rw [Array.getElem?_push_lt hlt, ← Array.getElem?_eq_getElem hlt, h]

/-- The type that is told for a class in a role. -/
inductive DerivedType (d : Draft) (key : SymbolKey) : TypeRole → TypeKey → Prop
  | own {type : TypeKey} : Replies (d.finish.oracle.classType key) (.ok type) →
    DerivedType d key .own type
  | star {type : TypeKey} : Replies (d.finish.oracle.starProjectedType key) (.ok type) →
    DerivedType d key .star type
  | argument {own type : TypeKey} {record : TypeRecord} {name : String}
    {arguments : List (TypeArgument TypeKey)} {position : Nat} {variance : Variance} :
    Replies (d.finish.oracle.classType key) (.ok own) →
    Replies (d.finish.oracle.type own) (.ok record) → record.shape = .classType name arguments →
    arguments[position]? = some (.projection variance type) →
    DerivedType d key (.argument position) type

/-- The type is told to have the shape. -/
def Shaped (d : Draft) (type : TypeKey) (shape : TypeShape) : Prop :=
  ∃ record, Replies (d.finish.oracle.type type) (.ok record) ∧ record.shape = shape

/-- What a finished draft tells about what it was made of, and about the types of its classes and functions. -/
structure Complete (d : Draft) : Prop where
  files : ∀ (key : FileKey) file, d.files[key.index]? = some file →
    Replies (d.finish.oracle.file key) (.ok file)
  symbols : ∀ (key : SymbolKey) symbol, d.symbols[key.index]? = some symbol →
    Replies (d.finish.oracle.symbol key) (.ok symbol)
  annotations : ∀ (key : AnnotationKey) record, d.annotations[key.index]? = some record →
    Replies (d.finish.oracle.annotationUse key) (.ok record)
  types : ∀ (key : TypeKey) type, d.types[key.index]? = some type →
    Replies (d.finish.oracle.type key) (.ok type)
  expressions : ∀ (key : ExprKey) value, d.expressions[key.index]? = some value →
    Replies (d.finish.oracle.evaluateConstant key) value
  classType_iff : ∀ key, (∃ type, Replies (d.finish.oracle.classType key) (.ok type)) ↔ d.Nameable key
  starProjectedType_iff : ∀ key,
    (∃ type, Replies (d.finish.oracle.starProjectedType key) (.ok type)) ↔ d.Nameable key
  /-- Both types bear the qualified name; one has the type parameters as arguments, the other stars. -/
  shapes : ∀ key own star, Replies (d.finish.oracle.classType key) (.ok own) →
    Replies (d.finish.oracle.starProjectedType key) (.ok star) →
    ∃ symbol details package names, ∃ arguments : List (TypeArgument TypeKey),
      d.symbols[key.index]? = some symbol ∧ symbol.details = .classLike details ∧ Path d.symbols key package names ∧
      d.Shaped own (.classType (packageQualified package (".".intercalate names)) arguments) ∧
      arguments.length = details.typeParameters.length ∧
      (∀ (i : Nat) p, details.typeParameters[i]? = some p → ∃ type : TypeKey,
        arguments[i]? = some (.projection .invariant type) ∧ d.Shaped type (.typeParameter p)) ∧
      d.Shaped star (.classType (packageQualified package (".".intercalate names))
        (List.replicate details.typeParameters.length .star))
  new : ∀ key role type, d.DerivedType key role type → d.types.size ≤ type.index
  distinct : ∀ key key' role role' type, d.DerivedType key role type →
    d.DerivedType key' role' type → key = key' ∧ role = role'
  classByName : ∀ name key, Replies (d.finish.oracle.classByName name) (some key) →
    (∃ own, Replies (d.finish.oracle.classType key) (.ok own)) ∧
      ∃ star, Replies (d.finish.oracle.starProjectedType key) (.ok star)
  /-- All functions without a recorded return type have the same one. -/
  returnType : ∃ unit, ∀ key symbol details, d.symbols[key.index]? = some symbol →
    symbol.details = .function details →
    (d.finish.oracle.returnType key d.finish.returnTypes).1 =
        .ok (d.returnTypes.known[key]?.getD unit) ∧
      (d.returnTypes.known[key]? = none →
        Replies (d.finish.oracle.type unit) (.ok (.ofClass "kotlin.Unit")))

theorem replies_classType {type : TypeKey} : Replies (d.finish.oracle.classType key) (.ok type) ↔
    ∃ types, d.finish.classTypes[key]? = some types ∧ types.own = type :=
  SymbolTable.replies_answer.trans Option.map_eq_some_iff

theorem replies_starProjectedType {type : TypeKey} :
    Replies (d.finish.oracle.starProjectedType key) (.ok type) ↔
      ∃ types, d.finish.classTypes[key]? = some types ∧ types.star = type :=
  SymbolTable.replies_answer.trans Option.map_eq_some_iff

theorem replies_type {type : TypeKey} {record : TypeRecord} :
    Replies (d.finish.oracle.type type) (.ok record) ↔ d.finish.types[type.index]? = some record :=
  SymbolTable.replies_answer

/-- The classes with types are those with qualified names. -/
theorem exists_classTypes_iff (hacyclic : ∀ key, ¬ Relation.TransGen d.ClassIn key key) :
    (∃ types, d.finish.classTypes[key]? = some types) ↔ d.Nameable key := by
  constructor
  · rintro ⟨types, htypes⟩
    obtain ⟨blocks, hledger⟩ := d.exists_ledger
    obtain ⟨b, hmem, -⟩ := hledger.classTypes.mp htypes
    exact nameable_of_qualifiedClassName (hledger.describes hmem).2.1
  · intro hnameable
    obtain ⟨package, names, hpath⟩ := hnameable.exists_path hacyclic
    exact d.exists_classTypes hpath.qualifiedClassName_eq_some

namespace Ledger

variable {blocks : List (SymbolKey × TypeBlock)} {b : TypeBlock}

theorem shaped_own (h : d.Ledger d.symbols.size (d.derived d.symbols.size) blocks)
    (hmem : (key, b) ∈ blocks) : d.Shaped b.types.own (.classType b.name b.arguments) := by
  obtain ⟨record, hrecord, hshape⟩ := (h.placed hmem).2.2.own
  exact ⟨record, replies_type.mpr (finish_types_of_derived hrecord), hshape⟩

theorem shaped_star (h : d.Ledger d.symbols.size (d.derived d.symbols.size) blocks)
    (hmem : (key, b) ∈ blocks) :
    d.Shaped b.types.star (.classType b.name (b.parameters.map fun _ => .star)) := by
  obtain ⟨record, hrecord, hshape⟩ := (h.placed hmem).2.2.star
  exact ⟨record, replies_type.mpr (finish_types_of_derived hrecord), hshape⟩

theorem shaped_argument (h : d.Ledger d.symbols.size (d.derived d.symbols.size) blocks)
    (hmem : (key, b) ∈ blocks) {i : Nat} {p : SymbolKey} (hp : b.parameters[i]? = some p) :
    d.Shaped ⟨b.position (.argument i)⟩ (.typeParameter p) := by
  obtain ⟨record, hrecord, hshape⟩ := (h.placed hmem).2.2.argument hp
  exact ⟨record, replies_type.mpr (finish_types_of_derived hrecord), hshape⟩

/-- Types with roles are at the positions for their roles. -/
theorem exists_block (h : d.Ledger d.symbols.size (d.derived d.symbols.size) blocks)
    {role : TypeRole} {type : TypeKey} (htype : d.DerivedType key role type) :
    ∃ b, (key, b) ∈ blocks ∧ b.Fills role ∧ type.index = b.position role := by
  cases htype with
  | own hown =>
    obtain ⟨types, htypes, rfl⟩ := replies_classType.mp hown
    obtain ⟨b, hmem, rfl⟩ := h.classTypes.mp htypes
    exact ⟨b, hmem, trivial, rfl⟩
  | star hstar =>
    obtain ⟨types, htypes, rfl⟩ := replies_starProjectedType.mp hstar
    obtain ⟨b, hmem, rfl⟩ := h.classTypes.mp htypes
    exact ⟨b, hmem, trivial, rfl⟩
  | argument hown hrecord hshape hargument =>
    obtain ⟨types, htypes, rfl⟩ := replies_classType.mp hown
    obtain ⟨b, hmem, rfl⟩ := h.classTypes.mp htypes
    obtain ⟨record', hrecord', hshape'⟩ := h.shaped_own hmem
    cases Except.ok.inj (hrecord.unique hrecord')
    cases hshape.symm.trans hshape'
    have hposition := (List.getElem?_eq_some_iff.mp hargument).1
    rw [TypeBlock.length_arguments] at hposition
    rw [TypeBlock.getElem?_arguments hposition] at hargument
    cases hargument
    exact ⟨b, hmem, hposition, rfl⟩

end Ledger

/-- It is enough that no class lies in itself. -/
theorem finish_complete (hacyclic : ∀ key, ¬ Relation.TransGen d.ClassIn key key) : d.Complete := by
  obtain ⟨blocks, hledger⟩ := d.exists_ledger
  constructor
  case files | symbols | annotations => exact fun _ _ h => SymbolTable.replies_answer.mpr h
  case types =>
    intro key type htype
    have hlt := (Array.getElem?_eq_some_iff.mp htype).1
    exact replies_type.mpr ((d.finish_derives.old hlt).trans htype)
  case expressions =>
    intro key value hvalue
    refine SymbolTable.replies_pure.mpr ?_
    change d.expressions[key.index]?.join = value
    rw [hvalue]
    rfl
  case classType_iff =>
    intro key
    rw [← exists_classTypes_iff hacyclic]
    simp [replies_classType]
  case starProjectedType_iff =>
    intro key
    rw [← exists_classTypes_iff hacyclic]
    simp [replies_starProjectedType]
  case shapes =>
    intro key own star hown hstar
    obtain ⟨types, htypes, rfl⟩ := replies_classType.mp hown
    obtain ⟨types', htypes', rfl⟩ := replies_starProjectedType.mp hstar
    cases htypes.symm.trans htypes'
    obtain ⟨b, hmem, rfl⟩ := hledger.classTypes.mp htypes
    obtain ⟨-, hname, symbol, details, hsymbol, hdetails, hparameters⟩ := hledger.describes hmem
    obtain ⟨package, names, hpath, hqualified⟩ := path_of_qualifiedClassName hname
    refine ⟨symbol, details, package, names, b.arguments, hsymbol, hdetails, hpath, ?_, ?_, ?_, ?_⟩
    · rw [hqualified]
      exact hledger.shaped_own hmem
    · rw [hparameters, b.length_arguments]
    · intro i p hp
      rw [hparameters] at hp
      have hi := (List.getElem?_eq_some_iff.mp hp).1
      exact ⟨_, TypeBlock.getElem?_arguments hi, hledger.shaped_argument hmem hp⟩
    · rw [hqualified, hparameters, ← List.map_const']
      exact hledger.shaped_star hmem
  case new =>
    intro key role type htype
    obtain ⟨b, hmem, hrole, hposition⟩ := hledger.exists_block htype
    rw [hposition]
    exact Nat.le_trans (hledger.placed hmem).1 (TypeBlock.position_bounds hrole).1
  case distinct =>
    intro key key' role role' type htype htype'
    obtain ⟨b, hmem, hrole, hposition⟩ := hledger.exists_block htype
    obtain ⟨b', hmem', hrole', hposition'⟩ := hledger.exists_block htype'
    exact hledger.unique hmem hmem' hrole hrole' (hposition.symm.trans hposition')
  case classByName =>
    intro name key hkey
    have hfound : d.finish.classesByName[name]? = some key := SymbolTable.replies_pure.mp hkey
    obtain ⟨types, htypes⟩ := d.exists_classTypes (d.qualifiedClassName_of_classesByName hfound)
    exact ⟨⟨_, replies_classType.mpr ⟨types, htypes, rfl⟩⟩,
      ⟨_, replies_starProjectedType.mpr ⟨types, htypes, rfl⟩⟩⟩
  case returnType =>
    refine ⟨d.unitType, fun key symbol details hsymbol hdetails => ⟨?_, fun hnone => ?_⟩⟩
    · change (SymbolTable.answer d.finish.returnTypes.known[key]? _ _).1 = _
      rw [d.finish_returnType hsymbol hdetails]
      rfl
    · have hmem := mem_withoutReturnType.mpr ⟨⟨symbol, details, hsymbol, hdetails⟩, hnone⟩
      exact replies_type.mpr (finish_unitType hmem)

/-- A class with a type parameter, a class in it, its constructor, whose return type was not recorded, and
a class in the body of the constructor. -/
def nestedBoxes : Draft where
  symbols := #[
    { name := some "Box", details := .classLike { typeParameters := [⟨1⟩], members := [⟨2⟩] }
      package := "boxes" },
    { name := some "T", details := .typeParameter {}, container := some ⟨0⟩, package := "boxes" },
    { name := some "Lid", details := .classLike { constructors := [⟨3⟩] }, kind := .classMember
      container := some ⟨0⟩, package := "boxes" },
    { name := none, details := .function { isConstructor := true }, kind := .classMember
      container := some ⟨2⟩, package := "boxes" },
    { name := some "Hinge", details := .classLike {}, kind := .inBody, container := some ⟨3⟩
      package := "boxes" }]

theorem nestedBoxes_complete : nestedBoxes.Complete ∧
    nestedBoxes.finish.types.toList.map TypeRecord.shape =
      [.typeParameter ⟨1⟩, .classType "boxes.Box" [.projection .invariant ⟨0⟩],
        .classType "boxes.Box" [.star], .classType "boxes.Box.Lid" [], .classType "boxes.Box.Lid" [],
        .classType "kotlin.Unit" []] :=
  ⟨finish_complete (not_transGen_classIn_of_lt (by decide +kernel)), by decide +kernel⟩

end Draft

end SymbolGraph
