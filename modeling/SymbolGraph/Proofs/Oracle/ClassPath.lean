import SymbolGraph.Oracle.Draft
import SymbolGraph.Proofs.Oracle.Chain

/-!
# Paths of classes

The qualified name of a class is made from the names of the classes around it. On the way outwards no
class is met twice, so the search for the name is never cut short.
-/

namespace SymbolGraph

namespace Draft

variable {d : Draft} {symbols : Array SymbolRecord} {key : SymbolKey} {package : String}
  {names : List String}

/-! ## Paths -/

/-- A class all of whose containers are classes, too. All of them have names, and none is local to a
body. The names are those from the outermost class to this one. -/
inductive Path (symbols : Array SymbolRecord) : SymbolKey → String → List String → Prop
  | outermost {key : SymbolKey} {symbol : SymbolRecord} {details : ClassDetails} {name : String} :
    symbols[key.index]? = some symbol → symbol.details = .classLike details →
    symbol.name = some name → symbol.kind ≠ .inBody → symbol.container = none →
    Path symbols key symbol.package [name]
  | nested {key outer : SymbolKey} {symbol : SymbolRecord} {details : ClassDetails}
    {name package : String} {names : List String} :
    symbols[key.index]? = some symbol → symbol.details = .classLike details →
    symbol.name = some name → symbol.kind ≠ .inBody → symbol.container = some outer →
    Path symbols outer package names → Path symbols key package (names ++ [name])

namespace Path

theorem of_classPath {steps : Nat} (h : classPath symbols steps key = some (package, names)) :
    Path symbols key package names := by
  induction steps generalizing key package names with
  | zero => cases h
  | succ steps ih =>
    obtain ⟨symbol, hsymbol, h⟩ := Option.bind_eq_some_iff.mp h
    split at h
    · rename_i details name hdetails hname
      split at h
      · cases h
      · rename_i hbody
        split at h
        · rename_i hcontainer
          cases h
          exact .outermost hsymbol hdetails hname hbody hcontainer
        · rename_i outer hcontainer
          obtain ⟨⟨_, outerNames⟩, houter, h⟩ := Option.map_eq_some_iff.mp h
          cases h
          exact .nested hsymbol hdetails hname hbody hcontainer (ih houter)
    · cases h

theorem exists_classLike (h : Path symbols key package names) :
    ∃ symbol details, symbols[key.index]? = some symbol ∧ symbol.details = .classLike details := by
  cases h with
  | outermost hsymbol hdetails | nested hsymbol hdetails => exact ⟨_, _, hsymbol, hdetails⟩

theorem names_ne_nil (h : Path symbols key package names) : names ≠ [] := by
  cases h <;> simp

/-- The path of a class in another one goes on from the path of the other one. -/
theorem outer (h : Path symbols key package names) {symbol : SymbolRecord}
    (hsymbol : symbols[key.index]? = some symbol) {outerKey : SymbolKey}
    (hcontainer : symbol.container = some outerKey) :
    ∃ outerNames, Path symbols outerKey package outerNames ∧
      names.length = outerNames.length + 1 := by
  cases h with
  | outermost hsymbol' _ _ _ hcontainer' =>
    cases hsymbol.symm.trans hsymbol'
    cases hcontainer.symm.trans hcontainer'
  | nested hsymbol' _ _ _ hcontainer' houter =>
    cases hsymbol.symm.trans hsymbol'
    cases hcontainer.symm.trans hcontainer'
    exact ⟨_, houter, List.length_append⟩

/-- The classes on a path, whose names it is made of. -/
theorem exists_chain (h : Path symbols key package names) :
    ∃ chain, key.Chain symbols chain ∧ chain.length = names.length ∧
      SymbolRecord.joinedName chain = some (packageQualified package (".".intercalate names)) ∧
      ∀ symbol ∈ chain, ∃ details, symbol.details = .classLike details := by
  induction h with
  | @outermost key symbol details name hsymbol hdetails hname hbody hcontainer =>
    refine ⟨[symbol], .outermost hsymbol hcontainer, rfl, ?_, ?_⟩
    · rw [SymbolRecord.joinedName_singleton, if_neg (symbol.not_hidesNames hdetails hbody),
        symbol.simpleName_of_classLike hdetails hname, String.intercalate_singleton]
    · exact List.forall_mem_singleton.mpr ⟨details, hdetails⟩
  | @nested key outer symbol details name package names hsymbol hdetails hname hbody hcontainer houter
    ih =>
    obtain ⟨chain, hchain, hlength, hjoined, hclasses⟩ := ih
    refine ⟨chain ++ [symbol], .nested hsymbol hcontainer hchain, ?_, ?_, ?_⟩
    · rw [List.length_append, List.length_append, hlength]
      rfl
    · rw [SymbolRecord.joinedName_concat hchain.ne_nil,
        if_neg (symbol.not_hidesNames hdetails hbody), hjoined,
        symbol.simpleName_of_classLike hdetails hname,
        packageQualified_concat package houter.names_ne_nil]
      rfl
    · exact List.forall_mem_append.mpr ⟨hclasses, List.forall_mem_singleton.mpr ⟨details, hdetails⟩⟩

/-- No path is longer than the table. -/
theorem length_le (h : Path symbols key package names) : names.length ≤ symbols.size := by
  obtain ⟨chain, hchain, hlength, _⟩ := h.exists_chain
  exact hlength ▸ hchain.length_le

theorem classPath_eq_some (h : Path symbols key package names) {steps : Nat}
    (hsteps : names.length ≤ steps) : classPath symbols steps key = some (package, names) := by
  induction h generalizing steps with
  | outermost hsymbol hdetails hname hbody hcontainer =>
    obtain ⟨steps, rfl⟩ := Nat.exists_eq_add_one.mpr hsteps
    simp only [classPath, hsymbol, Option.bind_some, hdetails, hname, if_neg hbody, hcontainer]
  | nested hsymbol hdetails hname hbody hcontainer _ ih =>
    rw [List.length_append, List.length_singleton] at hsteps
    obtain ⟨steps, rfl⟩ := Nat.exists_eq_add_one.mpr (Nat.lt_of_lt_of_le (Nat.succ_pos _) hsteps)
    simp only [classPath, hsymbol, Option.bind_some, hdetails, hname, if_neg hbody, hcontainer,
      ih (Nat.le_of_succ_le_succ hsteps), Option.map_some]

/-- The search for the name of a class gets to the end of the path. -/
theorem qualifiedClassName_eq_some (h : Path symbols key package names) :
    qualifiedClassName symbols key = some (packageQualified package (".".intercalate names)) := by
  rw [qualifiedClassName, h.classPath_eq_some (Nat.le_succ_of_le h.length_le), Option.map_some]

end Path

theorem path_of_qualifiedClassName {name : String} (h : qualifiedClassName symbols key = some name) :
    ∃ package names, Path symbols key package names ∧
      packageQualified package (".".intercalate names) = name := by
  obtain ⟨⟨package, names⟩, hpath, hname⟩ := Option.map_eq_some_iff.mp h
  exact ⟨package, names, .of_classPath hpath, hname⟩

/-! ## Chains of containers -/

/-- The first symbol is a class that lies in the second one. -/
def ClassIn (d : Draft) (key outer : SymbolKey) : Prop :=
  ∃ symbol details, d.symbols[key.index]? = some symbol ∧ symbol.details = .classLike details ∧
    symbol.container = some outer

/-- The class has a name and is not local to a body. -/
def Named (d : Draft) (key : SymbolKey) : Prop :=
  ∃ symbol details name, d.symbols[key.index]? = some symbol ∧
    symbol.details = .classLike details ∧ symbol.name = some name ∧ symbol.kind ≠ .inBody

/-- All symbols from a class outwards are classes that have names and are not local to a body. -/
def Nameable (d : Draft) (key : SymbolKey) : Prop :=
  ∀ outer, Relation.ReflTransGen d.ClassIn key outer → d.Named outer

theorem Nameable.exists_path (hacyclic : ∀ key, ¬ Relation.TransGen d.ClassIn key key)
    (h : d.Nameable key) : ∃ package names, Path d.symbols key package names := by
  have hwf : WellFounded fun outer key => d.ClassIn key outer :=
    wellFounded_of_acyclic SymbolKey.index_injective
      (fun ⟨_, _, hsymbol, _⟩ => (Array.getElem?_eq_some_iff.mp hsymbol).1) hacyclic
  induction hwf.apply key with
  | intro key _ ih =>
    obtain ⟨symbol, details, name, hsymbol, hdetails, hname, hbody⟩ := h key .refl
    cases hcontainer : symbol.container with
    | none => exact ⟨_, _, .outermost hsymbol hdetails hname hbody hcontainer⟩
    | some outer =>
      have hin : d.ClassIn key outer := ⟨symbol, details, hsymbol, hdetails, hcontainer⟩
      obtain ⟨_, _, houter⟩ := ih outer hin fun outermost hchain => h outermost (.head hin hchain)
      exact ⟨_, _, .nested hsymbol hdetails hname hbody hcontainer houter⟩

theorem Path.nameable (h : Path d.symbols key package names) : d.Nameable key := by
  generalize hsymbols : d.symbols = symbols at h
  induction h with
  | outermost hsymbol hdetails hname hbody hcontainer =>
    intro outer hchain
    subst hsymbols
    rcases hchain.cases_head with rfl | ⟨_, ⟨_, _, hsymbol', _, hcontainer'⟩, _⟩
    · exact ⟨_, _, _, hsymbol, hdetails, hname, hbody⟩
    · cases hsymbol.symm.trans hsymbol'
      cases hcontainer.symm.trans hcontainer'
  | nested hsymbol hdetails hname hbody hcontainer _ ih =>
    intro outer hchain
    subst hsymbols
    rcases hchain.cases_head with rfl | ⟨_, ⟨_, _, hsymbol', _, hcontainer'⟩, hchain⟩
    · exact ⟨_, _, _, hsymbol, hdetails, hname, hbody⟩
    · cases hsymbol.symm.trans hsymbol'
      cases hcontainer.symm.trans hcontainer'
      exact ih outer hchain

theorem nameable_of_qualifiedClassName {name : String}
    (h : qualifiedClassName d.symbols key = some name) : d.Nameable key := by
  obtain ⟨_, _, hpath, _⟩ := path_of_qualifiedClassName h
  exact hpath.nameable

/-- It is enough that every symbol lies in an earlier one. -/
theorem not_transGen_classIn_of_lt
    (h : ∀ i (hi : i < d.symbols.size), ∀ outer ∈ d.symbols[i].container, outer.index < i)
    (key : SymbolKey) : ¬ Relation.TransGen d.ClassIn key key := by
  have hlies {key outer : SymbolKey} (hin : d.ClassIn key outer) : key.LiesIn d.symbols outer := by
    obtain ⟨symbol, _, hsymbol, _, hcontainer⟩ := hin
    exact ⟨symbol, hsymbol, hcontainer⟩
  exact fun hloop => SymbolKey.not_transGen_liesIn_of_lt h key (hloop.lift id fun _ _ => hlies)

end Draft

end SymbolGraph
