import SymbolGraph.Processing.Processor
import SymbolGraph.Proofs.Oracle.Finish
import SymbolGraph.Proofs.Tidy.QualifiedName

/-!
# Names of classes

A class has one qualified name when the table is finished and another one in the graph, where it is
made from the names of its parents. They are the same, so what is found by a name has this name.
-/

namespace SymbolGraph

variable {world : World} {table : SymbolTable} {s : SessionState ReturnTypes} {d : Declaration}
  {key : SymbolKey} {package : String} {names : List String}

namespace Declaration

/-- In the graph a class on a path has the name that is made from the names on the path. -/
theorem qualifiedName_of_path (hfiles : world.table.FilesKnown)
    (hpath : Draft.Path world.table.symbols key package names) (hs : Tidy world.table s)
    (hd : d.FoundUnder s.caches key) :
    ∃ t, d.qualifiedName world.session s =
      .ok (some (packageQualified package (".".intercalate names))) t := by
  obtain ⟨chain, hchain, _, hjoined, hclasses⟩ := hpath.exists_chain
  rw [← hjoined]
  refine qualifiedName_of_chain hfiles hchain (fun symbol hmem => .declaration ?_) hs hd
  obtain ⟨_, hdetails⟩ := hclasses symbol hmem
  rw [hdetails]
  rfl

/-- From this state on the declaration is found to have this name. -/
def Named (world : World) (s : SessionState ReturnTypes) (d : Declaration) (name : String) : Prop :=
  ∀ {t : SessionState ReturnTypes}, Reaches world.session s t →
    ∃ u, d.qualifiedName world.session t = .ok (some name) u

theorem named_of_path (hfiles : world.table.FilesKnown)
    (hpath : Draft.Path world.table.symbols key package names) (hs : Tidy world.table s)
    (hd : d.FoundUnder s.caches key) :
    d.Named world s (packageQualified package (".".intercalate names)) :=
  fun ht => qualifiedName_of_path hfiles hpath (ht.tidy hs) (hd.grows ht.grows.caches)

end Declaration

/-! ## Classes by name -/

theorem Query.classByName_eq_ok_iff {name : String} {c : ClassNode} {t : SessionState ReturnTypes} :
    Query.classByName name world.session s = .ok (some c) t ↔
      ∃ key, world.table.classesByName[name]? = some key ∧
        Query.classLike key world.session s = .ok c t := by
  have hask : Query.ask (·.classByName name) world.session s =
      .ok world.table.classesByName[name]? s := rfl
  rw [Query.classByName, Action.bind_of_ok hask]
  cases world.table.classesByName[name]? with
  | none =>
    refine ⟨fun h => ?_, fun ⟨_, h, _⟩ => ?_⟩ <;> cases h
  | some key =>
    constructor
    · intro h
      obtain ⟨_, _, hrun, hsome⟩ := Action.bind_eq_ok h
      cases hsome
      exact ⟨key, rfl, hrun⟩
    · rintro ⟨_, hkey, hrun⟩
      cases hkey
      exact Action.bind_of_ok hrun _

theorem Query.classLike_foundUnder {c : ClassNode} {t : SessionState ReturnTypes}
    (hs : Tidy world.table s) (h : Query.classLike key world.session s = .ok c t) :
    Tidy world.table t ∧ (Declaration.classLike c).FoundUnder t.caches key := by
  obtain ⟨htidy, _, hfound⟩ := (Query.classLike_yields key).of_ok hs h
  exact ⟨htidy, hfound⟩

/-- A class on a path is found, and it has the name that is made from the path. -/
theorem Draft.Path.exists_classLike_named (h : Draft.Path world.table.symbols key package names)
    (hfiles : world.table.FilesKnown) (hs : Tidy world.table s) :
    ∃ c t, Query.classLike key world.session s = .ok c t ∧ c.key = key ∧
      (Declaration.classLike c).Named world t (packageQualified package (".".intercalate names)) := by
  obtain ⟨symbol, details, hsymbol, hdetails⟩ := h.exists_classLike
  obtain ⟨c, t, hrun⟩ : (Query.classLike key).Succeeds world.session s :=
    Query.classLike_succeeds hsymbol hdetails
  obtain ⟨ht, hc⟩ := Query.classLike_foundUnder hs hrun
  exact ⟨c, t, hrun, (hc.genuine ht.genuine).key_eq, Declaration.named_of_path hfiles h ht hc⟩

/-- If no class lies in itself and all files are known, then a class that is found by a name has this
name in the graph. And a class that has a name, and around which there are only such classes, has the
name in the graph that it was given when the table was finished, and by this name the last one of all
such classes of this name is found. -/
theorem classByName_qualifiedName {d : Draft}
    (hacyclic : ∀ key, ¬ Relation.TransGen d.ClassIn key key) (htable : world.table = d.finish)
    (hfiles : world.table.FilesKnown) {types : ReturnTypes}
    (hs : Reaches world.session (.start types) s) :
    (∀ {name c t}, Query.classByName name world.session s = .ok (some c) t →
      (Declaration.classLike c).Named world t name) ∧
    ∀ {key}, d.Nameable key → ∃ name, Draft.qualifiedClassName d.symbols key = some name ∧
      (∃ c t, Query.classLike key world.session s = .ok c t ∧
        (Declaration.classLike c).Named world t name) ∧
      ∃ c t, Query.classByName name world.session s = .ok (some c) t ∧ d.Nameable c.key ∧
        Draft.qualifiedClassName d.symbols c.key = some name ∧
        ∀ other, d.Nameable other → Draft.qualifiedClassName d.symbols other = some name →
          other.index ≤ c.key.index := by
  have hx : Tidy world.table s := hs.tidy (.start world.table types)
  have hsymbols : d.symbols = world.table.symbols := by rw [htable, Draft.finish]
  constructor
  · intro name c t hfound
    obtain ⟨key, hkey, hrun⟩ := Query.classByName_eq_ok_iff.mp hfound
    obtain ⟨ht, hc⟩ := Query.classLike_foundUnder hx hrun
    rw [htable] at hkey
    obtain ⟨package, names, hpath, rfl⟩ :=
      Draft.path_of_qualifiedClassName (d.qualifiedClassName_of_classesByName hkey)
    exact Declaration.named_of_path hfiles (hsymbols ▸ hpath) ht hc
  · intro key hkey
    obtain ⟨package, names, hpath⟩ := hkey.exists_path hacyclic
    have hname := hpath.qualifiedClassName_eq_some
    obtain ⟨c, t, hrun, _, hc⟩ := Draft.Path.exists_classLike_named (hsymbols ▸ hpath) hfiles hx
    refine ⟨_, hname, ⟨c, t, hrun, hc⟩, ?_⟩
    -- The last class of the name has a path, too, so it is found.
    obtain ⟨last, hlast, hlatest⟩ := d.exists_classesByName hname
    have hlastName := d.qualifiedClassName_of_classesByName hlast
    obtain ⟨_, _, hlastPath, _⟩ := Draft.path_of_qualifiedClassName hlastName
    obtain ⟨c, t, hrun, rfl, _⟩ :=
      Draft.Path.exists_classLike_named (hsymbols ▸ hlastPath) hfiles hx
    rw [← htable] at hlast
    exact ⟨c, t, Query.classByName_eq_ok_iff.mpr ⟨_, hlast, hrun⟩, hlastPath.nameable, hlastName,
      fun other _ hother => hlatest other hother⟩

/-- A draft with two classes of one name, of which the first one has a class in it. -/
def Draft.sameName : Draft where
  files := #[{ path := "p/a", package := "p" }]
  symbols := #[
    { name := some "A", details := .classLike {}, package := "p", file := some ⟨0⟩ },
    { name := some "B", details := .classLike {}, package := "p", container := some ⟨0⟩ },
    { name := some "A", details := .classLike {}, package := "p", file := some ⟨0⟩ }]

/-- The inner class has its name from the first of the two, and by the name of that one the second one
is found. -/
theorem classByName_qualifiedName_sameName :
    let world : World := { table := Draft.sameName.finish }
    let s : SessionState ReturnTypes := .start {}
    (∃ c t, Query.classByName "p.A.B" world.session s = .ok (some c) t ∧
      (Declaration.classLike c).Named world t "p.A.B") ∧
    ∃ c t, Query.classByName "p.A" world.session s = .ok (some c) t ∧ 2 ≤ c.key.index ∧
      (Declaration.classLike c).Named world t "p.A" := by
  intro world s
  let d := Draft.sameName
  have hin {key outer : SymbolKey} (h : d.ClassIn key outer) : key = ⟨1⟩ ∧ outer = ⟨0⟩ := by
    obtain ⟨symbol, _, hsymbol, _, hcontainer⟩ := h
    obtain ⟨_ | _ | _ | _⟩ := key <;> cases hsymbol <;> cases hcontainer
    exact ⟨rfl, rfl⟩
  have hacyclic (key : SymbolKey) : ¬ Relation.TransGen d.ClassIn key key := by
    intro hcycle
    obtain ⟨_, hfirst, _⟩ := Relation.TransGen.head'_iff.mp hcycle
    obtain ⟨_, _, hlast⟩ := Relation.TransGen.tail'_iff.mp hcycle
    cases (hin hfirst).1.symm.trans (hin hlast).2
  have hfiles : world.table.FilesKnown := by
    intro symbol hsymbol file hfile
    obtain ⟨i, hi, rfl⟩ := Array.mem_iff_getElem.mp hsymbol
    rcases i with _ | _ | _ | i
    · cases hfile
      exact Nat.one_pos
    · cases hfile
    · cases hfile
      exact Nat.one_pos
    · exact absurd hi (Nat.not_lt.mpr (Nat.le_add_left 3 i))
  have hnameable {key : SymbolKey} {name : String}
      (h : Draft.qualifiedClassName d.symbols key = some name) : d.Nameable key := by
    obtain ⟨_, _, hpath, _⟩ := Draft.path_of_qualifiedClassName h
    exact hpath.nameable
  have hfirst : Draft.qualifiedClassName d.symbols ⟨0⟩ = some "p.A" := by decide +kernel
  have hinner : Draft.qualifiedClassName d.symbols ⟨1⟩ = some "p.A.B" := by decide +kernel
  have hsecond : Draft.qualifiedClassName d.symbols ⟨2⟩ = some "p.A" := by decide +kernel
  have hnames := classByName_qualifiedName hacyclic rfl hfiles (s := s) .stay
  constructor
  · obtain ⟨name, hname, _, c, t, hrun, _⟩ := hnames.2 (hnameable hinner)
    cases hname.symm.trans hinner
    exact ⟨c, t, hrun, hnames.1 hrun⟩
  · obtain ⟨name, hname, _, c, t, hrun, _, _, hlast⟩ := hnames.2 (hnameable hfirst)
    cases hname.symm.trans hfirst
    exact ⟨c, t, hrun, hlast _ (hnameable hsecond) hsecond, hnames.1 hrun⟩

end SymbolGraph
