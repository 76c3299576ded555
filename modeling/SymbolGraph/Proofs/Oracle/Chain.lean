import Mathlib.Data.Fintype.Order
import Mathlib.Data.List.Nodup
import Mathlib.Logic.Relation
import SymbolGraph.Proofs.Tidy.Wrapper

/-!
# Chains of containers

Around a symbol there is its container, around that one the next, and so on. If nothing lies in itself,
then every chain ends at an outermost symbol, and none is longer than the table. The qualified name of a
symbol is made from the names on its chain.
-/

namespace SymbolGraph

/-! ## Ways through a table -/

/-- If the numbered things of a table do not lead to themselves, then every way from one to the next
ends. -/
theorem wellFounded_of_acyclic {κ : Type} {index : κ → Nat} (hindex : Function.Injective index)
    {size : Nat} {Leads : κ → κ → Prop} (hknown : ∀ {key next}, Leads key next → index key < size)
    (hacyclic : ∀ key, ¬ Relation.TransGen Leads key key) :
    WellFounded fun next key => Leads key next := by
  let Known := { key : κ // index key < size }
  have hfinite : Finite Known :=
    Finite.of_injective (fun key : Known => (⟨index key, key.property⟩ : Fin size))
      fun _ _ h => Subtype.ext (hindex (congrArg Fin.val h))
  let behind : Known → Known → Prop := fun next key => Relation.TransGen Leads key next
  have htrans : IsTrans Known behind := ⟨fun _ _ _ h h' => h'.trans h⟩
  have hirrefl : Std.Irrefl behind := ⟨fun key => hacyclic key⟩
  have hwf : WellFounded behind := Finite.wellFounded_of_trans_of_irrefl behind
  -- Nothing leads on from outside of the table.
  have hunknown {key : κ} (hkey : ¬ index key < size) : Acc (fun next key => Leads key next) key :=
    ⟨_, fun next hnext => absurd (hknown hnext) hkey⟩
  have hin (key : Known) : Acc (fun next key => Leads key next) key.val := by
    induction hwf.apply key with
    | intro key _ ih =>
      refine ⟨_, fun next hnext => ?_⟩
      by_cases hkey : index next < size
      · exact ih ⟨next, hkey⟩ (.single hnext)
      · exact hunknown hkey
  refine ⟨fun key => ?_⟩
  by_cases hkey : index key < size
  · exact hin ⟨key, hkey⟩
  · exact hunknown hkey

/-- What leads on to higher numbers only does not lead back to itself. -/
theorem not_transGen_self {κ : Type} (index : κ → Nat) {Leads : κ → κ → Prop}
    (hup : ∀ {key next}, Leads key next → index key < index next) (key : κ) :
    ¬ Relation.TransGen Leads key key := by
  intro hloop
  have hlt : Relation.TransGen (· < ·) (index key) (index key) := hloop.lift index fun _ _ => hup
  rw [Relation.transGen_eq_self] at hlt
  exact Nat.lt_irrefl _ hlt

theorem SymbolKey.index_injective : Function.Injective SymbolKey.index :=
  fun _ _ h => congrArg SymbolKey.mk h

/-- There is no room in a table for more symbols. -/
theorem SymbolKey.length_le_of_nodup {keys : List SymbolKey} {size : Nat} (h : keys.Nodup)
    (hknown : ∀ key ∈ keys, key.index < size) : keys.length ≤ size := by
  have hindexes : (keys.map SymbolKey.index).Nodup := h.map index_injective
  have hsubset : keys.map SymbolKey.index ⊆ List.range size := by
    intro i hi
    obtain ⟨key, hkey, rfl⟩ := List.mem_map.mp hi
    exact List.mem_range.mpr (hknown key hkey)
  have hle := hindexes.length_le_of_subset hsubset
  rwa [List.length_map, List.length_range] at hle

theorem TypeKey.index_injective : Function.Injective TypeKey.index :=
  fun _ _ h => congrArg TypeKey.mk h

/-! ## Chains -/

variable {symbols : Array SymbolRecord} {key : SymbolKey} {chain : List SymbolRecord}

namespace SymbolKey

/-- The first symbol has the second one as its container. -/
def LiesIn (symbols : Array SymbolRecord) (key outer : SymbolKey) : Prop :=
  ∃ symbol, symbols[key.index]? = some symbol ∧ symbol.container = some outer

/-- The symbols around a symbol and the symbol itself, the outermost one first. -/
inductive Chain (symbols : Array SymbolRecord) : SymbolKey → List SymbolRecord → Prop
  | outermost {key : SymbolKey} {symbol : SymbolRecord} :
    symbols[key.index]? = some symbol → symbol.container = none → Chain symbols key [symbol]
  | nested {key outer : SymbolKey} {symbol : SymbolRecord} {chain : List SymbolRecord} :
    symbols[key.index]? = some symbol → symbol.container = some outer →
    Chain symbols outer chain → Chain symbols key (chain ++ [symbol])

namespace Chain

theorem ne_nil (h : key.Chain symbols chain) : chain ≠ [] := by
  cases h <;> simp

theorem known (h : key.Chain symbols chain) : key.index < symbols.size := by
  cases h with
  | outermost hsymbol | nested hsymbol => exact (Array.getElem?_eq_some_iff.mp hsymbol).1

/-- The chain of a symbol ends with the symbol. -/
theorem exists_symbol (h : key.Chain symbols chain) :
    ∃ symbol, symbols[key.index]? = some symbol ∧ symbol ∈ chain := by
  cases h with
  | outermost hsymbol => exact ⟨_, hsymbol, List.mem_singleton_self _⟩
  | nested hsymbol => exact ⟨_, hsymbol, List.mem_append_right _ (List.mem_singleton_self _)⟩

/-- The chain of a symbol in another one goes on from the chain of the other one. -/
theorem outer (h : key.Chain symbols chain) {symbol : SymbolRecord}
    (hsymbol : symbols[key.index]? = some symbol) {outer : SymbolKey}
    (hcontainer : symbol.container = some outer) :
    ∃ outerChain, outer.Chain symbols outerChain ∧ chain = outerChain ++ [symbol] := by
  cases h with
  | outermost hsymbol' hcontainer' =>
    cases hsymbol.symm.trans hsymbol'
    cases hcontainer.symm.trans hcontainer'
  | nested hsymbol' hcontainer' houter =>
    cases hsymbol.symm.trans hsymbol'
    cases hcontainer.symm.trans hcontainer'
    exact ⟨_, houter, rfl⟩

/-- There is one chain to a symbol. -/
theorem unique (h : key.Chain symbols chain) {chain' : List SymbolRecord}
    (h' : key.Chain symbols chain') : chain = chain' := by
  induction h generalizing chain' with
  | outermost hsymbol hcontainer =>
    cases h' with
    | outermost hsymbol' =>
      cases hsymbol.symm.trans hsymbol'
      rfl
    | nested hsymbol' hcontainer' =>
      cases hsymbol.symm.trans hsymbol'
      cases hcontainer.symm.trans hcontainer'
  | nested hsymbol hcontainer _ ih =>
    obtain ⟨_, houter, rfl⟩ := h'.outer hsymbol hcontainer
    rw [ih houter]

/-- The keys on a chain, each further in than those after it. -/
theorem exists_keys (h : key.Chain symbols chain) :
    ∃ keys : List SymbolKey, keys.length = chain.length ∧ keys.Nodup ∧
      ∀ k ∈ keys, ∃ chain', k.Chain symbols chain' ∧ chain'.length ≤ chain.length := by
  induction h with
  | @outermost key symbol hsymbol hcontainer =>
    refine ⟨[key], rfl, List.nodup_singleton key, fun k hk => ?_⟩
    cases List.mem_singleton.mp hk
    exact ⟨_, .outermost hsymbol hcontainer, Nat.le_refl _⟩
  | @nested key outer symbol chain hsymbol hcontainer houter ih =>
    obtain ⟨keys, hlength, hnodup, hkeys⟩ := ih
    have hkey : key.Chain symbols (chain ++ [symbol]) := .nested hsymbol hcontainer houter
    have hlonger : (chain ++ [symbol]).length = chain.length + 1 := List.length_append
    -- The chains of the symbols further out are shorter, so this symbol is none of them.
    have hfresh : key ∉ keys := by
      intro hmem
      obtain ⟨chain', hchain', hle⟩ := hkeys key hmem
      rw [← hkey.unique hchain', hlonger] at hle
      exact Nat.not_succ_le_self _ hle
    refine ⟨key :: keys, ?_, List.nodup_cons.mpr ⟨hfresh, hnodup⟩, ?_⟩
    · rw [List.length_cons, hlonger, hlength]
    · refine List.forall_mem_cons.mpr ⟨⟨_, hkey, Nat.le_refl _⟩, fun k hk => ?_⟩
      obtain ⟨chain', hchain', hle⟩ := hkeys k hk
      exact ⟨chain', hchain', hlonger ▸ Nat.le_succ_of_le hle⟩

/-- No chain is longer than the table. -/
theorem length_le (h : key.Chain symbols chain) : chain.length ≤ symbols.size := by
  obtain ⟨keys, hlength, hnodup, hkeys⟩ := h.exists_keys
  rw [← hlength]
  refine length_le_of_nodup hnodup fun k hk => ?_
  obtain ⟨_, hchain, _⟩ := hkeys k hk
  exact hchain.known

end Chain

/-- It is enough that every symbol lies in an earlier one. -/
theorem not_transGen_liesIn_of_lt
    (h : ∀ i (hi : i < symbols.size), ∀ outer ∈ symbols[i].container, outer.index < i)
    (key : SymbolKey) : ¬ Relation.TransGen (LiesIn symbols) key key := by
  have hup {outer key : SymbolKey} (hin : flip (LiesIn symbols) outer key) :
      outer.index < key.index := by
    obtain ⟨symbol, hsymbol, hcontainer⟩ := hin
    obtain ⟨hkey, rfl⟩ := Array.getElem?_eq_some_iff.mp hsymbol
    exact h key.index hkey outer hcontainer
  exact fun hloop => not_transGen_self SymbolKey.index hup key (Relation.transGen_swap.mp hloop)

/-- If nothing lies in itself and all symbols on the way outwards are known, then the way ends. -/
theorem exists_chain (hacyclic : ∀ key, ¬ Relation.TransGen (LiesIn symbols) key key)
    {P : SymbolRecord → Prop} (h : ∀ outer, Relation.ReflTransGen (LiesIn symbols) key outer →
      ∃ symbol, symbols[outer.index]? = some symbol ∧ P symbol) :
    ∃ chain, key.Chain symbols chain ∧ ∀ symbol ∈ chain, P symbol := by
  have hwf : WellFounded fun outer key => LiesIn symbols key outer :=
    wellFounded_of_acyclic index_injective
      (fun ⟨_, hsymbol, _⟩ => (Array.getElem?_eq_some_iff.mp hsymbol).1) hacyclic
  induction hwf.apply key with
  | intro key _ ih =>
    obtain ⟨symbol, hsymbol, hP⟩ := h key .refl
    cases hcontainer : symbol.container with
    | none => exact ⟨_, .outermost hsymbol hcontainer, List.forall_mem_singleton.mpr hP⟩
    | some outer =>
      have hin : LiesIn symbols key outer := ⟨symbol, hsymbol, hcontainer⟩
      obtain ⟨chain, houter, hchain⟩ :=
        ih outer hin fun outermost hlies => h outermost (.head hin hlies)
      exact ⟨_, .nested hsymbol hcontainer houter,
        List.forall_mem_append.mpr ⟨hchain, List.forall_mem_singleton.mpr hP⟩⟩

end SymbolKey

/-! ## Names from chains -/

def SymbolDetails.isAccessor : SymbolDetails → Bool
  | getter _ | setter _ => true
  | _ => false

theorem packageQualified_concat (package : String) {names : List String} (h : names ≠ [])
    (name : String) :
    packageQualified package (".".intercalate (names ++ [name])) =
      packageQualified package (".".intercalate names) ++ "." ++ name := by
  rw [String.intercalate_append_of_ne_nil h (List.cons_ne_nil name []),
    String.intercalate_singleton, packageQualified, packageQualified]
  split
  · rfl
  · simp only [String.append_assoc]

namespace SymbolRecord

/-- Neither the symbol nor anything in it has a qualified name. -/
def hidesNames (symbol : SymbolRecord) : Bool :=
  symbol.kind = .inBody || symbol.details.isAccessor

/-- The package of the first symbol, then the names of all of them. -/
def joinedName (chain : List SymbolRecord) : Option String :=
  if chain.any hidesNames then none
  else chain.head?.map fun outermost =>
    packageQualified outermost.package (".".intercalate (chain.map simpleName))

theorem joinedName_singleton (symbol : SymbolRecord) : joinedName [symbol] =
    if symbol.hidesNames then none else some (packageQualified symbol.package symbol.simpleName) := by
  simp [joinedName]

theorem joinedName_concat (h : chain ≠ []) (symbol : SymbolRecord) : joinedName (chain ++ [symbol]) =
    if symbol.hidesNames then none
    else (joinedName chain).map fun name => name ++ "." ++ symbol.simpleName := by
  unfold joinedName
  rw [List.any_append, List.any_cons, List.any_nil, Bool.or_false, List.head?_append_of_ne_nil _ h,
    List.map_append, List.map_singleton]
  cases hchain : chain.any hidesNames
  · cases hsymbol : symbol.hidesNames
    · have hnames : chain.map simpleName ≠ [] := mt List.map_eq_nil_iff.mp h
      simp [packageQualified_concat _ hnames, Function.comp_def]
    · simp
  · simp

theorem joinedName_eq_none {symbol : SymbolRecord} (h : symbol ∈ chain) (hhides : symbol.hidesNames) :
    joinedName chain = none :=
  if_pos (List.any_eq_true.mpr ⟨symbol, h, hhides⟩)

/-- A chain gives no name only if a symbol on it hides the name. -/
theorem exists_hidesNames (h : chain ≠ []) (hnone : joinedName chain = none) :
    ∃ symbol ∈ chain, symbol.hidesNames = true := by
  unfold joinedName at hnone
  split at hnone
  · exact List.any_eq_true.mp ‹_›
  · exact absurd (List.head?_eq_none_iff.mp (Option.map_eq_none_iff.mp hnone)) h

/-- Where a chain gives no name, no longer chain gives one. -/
theorem joinedName_of_prefix (h : chain ≠ []) {longer : List SymbolRecord} (hbegins : chain <+: longer)
    (hnone : joinedName chain = none) : joinedName longer = none := by
  obtain ⟨symbol, hmem, hhides⟩ := exists_hidesNames h hnone
  exact joinedName_eq_none (hbegins.mem hmem) hhides

theorem not_hidesNames (symbol : SymbolRecord) {details : ClassDetails}
    (hdetails : symbol.details = .classLike details) (hbody : symbol.kind ≠ .inBody) :
    ¬ symbol.hidesNames := by
  simp [hidesNames, hdetails, hbody, SymbolDetails.isAccessor]

theorem simpleName_of_classLike (symbol : SymbolRecord) {details : ClassDetails} {name : String}
    (hdetails : symbol.details = .classLike details) (hname : symbol.name = some name) :
    symbol.simpleName = name := by
  rw [simpleName, hdetails, hname]
  rfl

end SymbolRecord

end SymbolGraph
