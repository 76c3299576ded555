import Mathlib.Data.List.Dedup
import SymbolGraph.Processing.ConstNames
import SymbolGraph.Proofs.Oracle.Closed
import SymbolGraph.Proofs.Processing.Nested
import SymbolGraph.Proofs.Text.ByteOrder

/-!
# Names of the constant properties of a table

The names that a round adds can be told from the table: those of the properties that are reachable from the
files or the packages and are constant. A property may be reachable in many ways. It has one handle in all
of them, and its name is added when the handle is met for the first time.
-/

namespace SymbolGraph

variable {world : World} {table : SymbolTable} {caches later : Caches} {key : SymbolKey}

/-! ## Sets of modifiers -/

namespace ModifierSet

variable {set : ModifierSet} {m n : Modifier} {ms : List Modifier}

theorem mem_insertIf {flag : Bool} : n ∈ set.insertIf flag m ↔ flag = true ∧ n = m ∨ n ∈ set := by
  cases flag <;> simp [insertIf, mem_insert]

theorem mem_insertMany : n ∈ set.insertMany ms ↔ n ∈ ms ∨ n ∈ set := by
  rw [insertMany]
  induction ms generalizing set with
  | nil => simp
  | cons m ms ih =>
    rw [List.foldl_cons, ih, mem_insert, List.mem_cons]
    tauto

theorem not_mem_empty : m ∉ (∅ : ModifierSet) := List.not_mem_nil

theorem mem_ofList : n ∈ ofList ms ↔ n ∈ ms := by
  rw [ofList, mem_insertMany]
  exact or_iff_left not_mem_empty

end ModifierSet

/-! ## Constant properties -/

/-- Whether a property is constant, by its flag or by a keyword of the native language. -/
def SymbolRecord.isConst (symbol : SymbolRecord) (flags : PropertyFlags) : Bool :=
  flags.isConst || symbol.source.any fun source =>
    source.form == .native && source.keywords.contains "const"

namespace SymbolTable

/-- The name of a constant property. -/
def constName (table : SymbolTable) (key : SymbolKey) : Option String :=
  table.symbols[key.index]?.bind fun symbol =>
    match symbol.details with
    | .property p => if symbol.isConst p.flags then some symbol.simpleName else none
    | _ => none

/-- What the files and some packages declare at top level. -/
def topLevelWith (table : SymbolTable) (packages : List String) : List SymbolKey :=
  table.topLevel ++ packages.flatMap fun package => table.packages.getD package []

end SymbolTable

namespace Modifier

theorem ofKeyword?_eq_const {word : String} : ofKeyword? word = some .const ↔ word = "const" := by
  constructor
  · intro h
    unfold ofKeyword? at h
    split at h <;> first | rfl | cases h
  · rintro rfl
    rfl

theorem ofInteropKeyword?_ne_const (word : String) : ofInteropKeyword? word ≠ some .const := by
  unfold ofInteropKeyword?
  split <;> nofun

end Modifier

/-- Words of other languages, and the access to a symbol, do not make it constant. -/
theorem SymbolRecord.const_mem_declaredModifiers {symbol : SymbolRecord} :
    .const ∈ symbol.declaredModifiers ↔ ∃ source ∈ symbol.source, source.form = .native ∧
      "const" ∈ source.keywords := by
  have hvisibility : .const ∉ (Modifier.ofVisibility? symbol.visibility).toList := by
    cases symbol.visibility <;> decide
  have hmodality : .const ∉ (symbol.modality.map Modifier.ofModality).toList := by
    rcases symbol.modality with _ | (_ | _ | _ | _) <;> decide
  rw [declaredModifiers, ModifierSet.mem_insertMany, or_iff_right hmodality, ModifierSet.mem_insertMany,
    or_iff_right hvisibility, keywordModifiers]
  cases symbol.source with
  | none => simp [ModifierSet.not_mem_empty]
  | some source =>
    simp only [ModifierSet.ofSource, Option.mem_some_iff, exists_eq_left']
    cases hform : source.form with
    | native => simp [ModifierSet.ofKeywords, ModifierSet.mem_ofList, Modifier.ofKeyword?_eq_const]
    | interop => simp [ModifierSet.mem_ofList, Modifier.ofInteropKeyword?_ne_const]
    | other => simp [ModifierSet.not_mem_empty]

theorem SymbolRecord.const_mem_propertyModifiers {symbol : SymbolRecord} {flags : PropertyFlags} :
    .const ∈ symbol.propertyModifiers flags ↔ symbol.isConst flags = true := by
  simp [propertyModifiers, ModifierSet.mem_insertIf, const_mem_declaredModifiers, isConst,
    Option.any_eq_true]

/-- The modifiers of a property tell whether it has a name among those of the constant ones. -/
theorem PropertyNode.constName_eq (hgenuine : caches.Genuine table) {p : PropertyNode}
    (hp : (Declaration.property p).FoundUnder caches key) : table.constName key =
      if .const ∈ p.symbol.propertyModifiers p.details.flags then some p.simpleName else none := by
  cases hgenuine.made (.node .property) hp with | property id hsymbol hdetails =>
  simp only [SymbolTable.constName, hsymbol, Option.bind_some, hdetails, SymbolRecord.simpleName,
    SymbolRecord.const_mem_propertyModifiers]
  rfl

/-- Only properties have such names. -/
theorem SymbolTable.constName_of_sort? (h : table.sort? key ≠ some .property) :
    table.constName key = none := by
  cases hsymbol : table.symbols[key.index]? with
  | none => rw [constName, hsymbol, Option.bind_none]
  | some symbol =>
    rw [sort?, hsymbol, Option.map_some] at h
    rw [constName, hsymbol, Option.bind_some]
    cases hdetails : symbol.details with
    | property => exact absurd (by rw [hdetails]; rfl) h
    | _ => rfl

theorem Declaration.Genuine.sort?_eq {d : Declaration} (h : d.Genuine table key) :
    table.sort? key = some d.node.kind := by
  rw [SymbolTable.sort?, h.symbol, Option.map_some, h.sort]

/-! ## Meeting properties -/

namespace ConstScan

/-- The handles met are those of the properties that were entered, and each of these that is constant is
named once. -/
structure Noted (table : SymbolTable) (caches : Caches) (scan : ConstScan) (visited : List SymbolKey) :
    Prop where
  key_of_seen : ∀ node ∈ scan.seen, ∃ key ∈ visited, (NodeKey.mk .property key).At caches node
  seen_of_key : ∀ key ∈ visited, table.sort? key = some .property →
    ∃ node ∈ scan.seen, (NodeKey.mk .property key).At caches node
  names : scan.names.Perm (visited.dedup.filterMap table.constName)

namespace Noted

variable {scan : ConstScan} {visited : List SymbolKey}

theorem start : Noted table caches {} [] where
  key_of_seen _ h := nomatch h
  seen_of_key _ h := nomatch h
  names := .nil

theorem grows (h : Noted table caches scan visited) (hgrows : caches.Grows later) :
    Noted table later scan visited where
  key_of_seen node hnode := by
    obtain ⟨key, hkey, hat⟩ := h.key_of_seen node hnode
    exact ⟨key, hkey, hat.grows hgrows⟩
  seen_of_key key hkey hsort := by
    obtain ⟨node, hnode, hat⟩ := h.seen_of_key key hkey hsort
    exact ⟨node, hnode, hat.grows hgrows⟩
  names := h.names

/-- A property was met before exactly if its key was. -/
theorem mem_seen_iff (h : Noted table caches scan visited) (hgenuine : caches.Genuine table)
    {p : PropertyNode} (hp : (Declaration.property p).FoundUnder caches key) :
    p.id.node ∈ scan.seen ↔ key ∈ visited := by
  constructor
  · intro hseen
    -- The handle that was met is that of one key only.
    obtain ⟨other, hother, w, hw, hnode⟩ := h.key_of_seen _ hseen
    have hkey : key = other :=
      hgenuine.key_unique (.node .property) hp hw (congrArg NodeId.index hnode).symm
    rwa [hkey]
  · intro hkey
    -- The key has one wrapper, whichever way it was reached.
    have hsort := (hp.genuine hgenuine).sort?_eq
    obtain ⟨node, hnode, w, hw, rfl⟩ := h.seen_of_key key hkey hsort
    cases hp.symm.trans hw
    exact hnode

/-- Nothing is new but a property that was not entered before. -/
theorem concat (h : Noted table caches scan visited)
    (hkey : table.sort? key = some .property → key ∈ visited) :
    Noted table caches scan (visited ++ [key]) where
  key_of_seen node hnode := by
    obtain ⟨other, hother, hat⟩ := h.key_of_seen node hnode
    exact ⟨other, List.mem_append_left _ hother, hat⟩
  seen_of_key other hother hsort := by
    refine h.seen_of_key other ?_ hsort
    rcases List.mem_append.mp hother with hvisited | hlast
    · exact hvisited
    · cases List.mem_singleton.mp hlast
      exact hkey hsort
  names := by
    have hlast := ((List.perm_append_singleton key visited).dedup.filterMap table.constName).symm
    by_cases hvisited : key ∈ visited
    · rw [List.dedup_cons_of_mem hvisited] at hlast
      exact h.names.trans hlast
    · rw [List.dedup_cons_of_notMem hvisited,
        List.filterMap_cons_none (table.constName_of_sort? (mt hkey hvisited))] at hlast
      exact h.names.trans hlast

/-- A new property is met with its handle, and brings its name if it has one. -/
theorem meet (h : Noted table caches scan visited) (hkey : key ∉ visited) {p : PropertyNode}
    (hp : (Declaration.property p).FoundUnder caches key) {met : ConstScan}
    (hseen : met.seen = p.id.node :: scan.seen)
    (hnames : met.names = scan.names ++ (table.constName key).toList) :
    Noted table caches met (visited ++ [key]) where
  key_of_seen node hnode := by
    rw [hseen] at hnode
    rcases List.mem_cons.mp hnode with rfl | hnode
    · exact ⟨key, List.mem_append_right _ List.mem_cons_self, p, hp, rfl⟩
    · obtain ⟨other, hother, hat⟩ := h.key_of_seen node hnode
      exact ⟨other, List.mem_append_left _ hother, hat⟩
  seen_of_key other hother hsort := by
    rw [hseen]
    rcases List.mem_append.mp hother with hvisited | hlast
    · obtain ⟨node, hnode, hat⟩ := h.seen_of_key other hvisited hsort
      exact ⟨node, List.mem_cons_of_mem _ hnode, hat⟩
    · cases List.mem_singleton.mp hlast
      exact ⟨_, List.mem_cons_self, p, hp, rfl⟩
  names := by
    have hlast := ((List.perm_append_singleton key visited).dedup.filterMap table.constName).symm
    rw [List.dedup_cons_of_notMem hkey] at hlast
    rw [hnames]
    refine List.perm_append_comm.trans (.trans ?_ hlast)
    cases hname : table.constName key with
    | none => simpa [hname] using h.names
    | some name => simpa [hname] using h.names

end Noted

section Enter

variable {σ : Type} {session : Session σ} {x y : ConstScan × SessionState σ} {p : PropertyNode}

theorem enter_property : enter (.property p) session x = (if p.id.node ∈ x.1.seen then pure () else do
    Visit.change fun scan => { scan with seen := p.id.node :: scan.seen }
    let modifiers ← Visit.ofQuery p.modifiers
    if .const ∈ modifiers then
      Visit.change fun scan => { scan with names := scan.names ++ [p.simpleName] } :
    Visit σ ConstScan Unit) session x := rfl

theorem enter_of_seen (h : p.id.node ∈ x.1.seen) :
    enter (.property p) session x = .ok () x := by
  rw [enter_property, if_pos h]
  rfl

theorem enter_of_new (h : p.id.node ∉ x.1.seen) (hok : enter (.property p) session x = .ok () y) :
    ∃ modifiers, p.modifiers session x.2 = .ok modifiers y.2 ∧
      y.1.seen = p.id.node :: x.1.seen ∧
      y.1.names = x.1.names ++ if .const ∈ modifiers then [p.simpleName] else [] := by
  rw [enter_property, if_neg h] at hok
  obtain ⟨_, z, hseen, hok⟩ := Action.bind_eq_ok hok
  cases hseen
  obtain ⟨modifiers, s, hmodifiers, hok⟩ := Visit.bind_ofQuery_eq_ok hok
  refine ⟨modifiers, ?_⟩
  by_cases hconst : .const ∈ modifiers
  · rw [if_pos hconst] at hok ⊢
    cases hok
    exact ⟨hmodifiers, rfl, rfl⟩
  · rw [if_neg hconst] at hok ⊢
    cases hok
    exact ⟨hmodifiers, rfl, (List.append_nil _).symm⟩

end Enter

theorem tracks : Visit.Tracks world ConstScan.enter (Noted world.table) where
  grows := Noted.grows
  step {x y visited key d} hx hd hnoted hok := by
    have hshown := hd.genuine hx.genuine
    cases d with
    | property p =>
      by_cases hkey : key ∈ visited
      · -- The handle was met before, so the scan is left as it is.
        cases (enter_of_seen ((hnoted.mem_seen_iff hx.genuine hd).mpr hkey)).symm.trans hok
        exact ⟨hx, hnoted.concat fun _ => hkey⟩
      · have hunseen := mt (hnoted.mem_seen_iff hx.genuine hd).mp hkey
        obtain ⟨modifiers, hmodifiers, hseen, hnames⟩ := enter_of_new hunseen hok
        have hp := hx.genuine.issued_of_lookup hd
        obtain ⟨hy, hgrows, hfact⟩ := (LazyField.propertyModifiers.read_yields hp).of_ok hx hmodifiers
        refine ⟨hy, (hnoted.grows hgrows).meet hkey (hd.grows hgrows) hseen ?_⟩
        cases hfact
        rw [hnames, p.constName_eq hx.genuine hd]
        split <;> rfl
    | classLike w | function w | typeParameter w =>
      cases hok
      exact ⟨hx, hnoted.concat fun h => nomatch hshown.sort?_eq.symm.trans h⟩

/-- A scan enters everything under the files and then everything under the packages. -/
theorem enters (packages : List String) :
    Visit.Enters world (Noted world.table) (scan packages) (world.table.topLevelWith packages) := by
  refine tracks.newFiles (.forM (fun package => ?_) packages)
  refine .query Noted.grows (.glance (.declarationsInPackage package)) fun {keys caches} _ hkeys => ?_
  cases hkeys
  exact tracks.nested _

end ConstScan

/-- The names of a scan are handed over only if it succeeds. -/
theorem constNames_process {σ : Type} (packages before : List String) (session : Session σ)
    (s : SessionState σ) : (constNames packages).process session (before, s) =
      match ConstScan.scan packages session ({}, s) with
      | .ok () (scan, t) => .ok [] (before ++ scan.names, t)
      | .error e (_, t) => .error e (before, t) := by
  have hscan : (Visit.ofQuery ((ConstScan.scan packages).run {}) :
      Visit σ (List String) (Except GraphError Unit × ConstScan)) session (before, s) =
        match ConstScan.scan packages session ({}, s) with
        | .ok a (scan, t) => .ok (.ok a, scan) (before, t)
        | .error e (scan, t) => .ok (.error e, scan) (before, t) := by
    rw [Visit.ofQuery, Visit.run]
    cases ConstScan.scan packages session ({}, s) <;> rfl
  cases houtcome : ConstScan.scan packages session ({}, s) with
  | ok a y =>
    rw [houtcome] at hscan
    exact Action.bind_of_ok hscan _
  | error e y =>
    rw [houtcome] at hscan
    exact Action.bind_of_ok hscan _

/-- A round that succeeds adds the name of each constant property that is reachable from the files or the
packages, once for a property, and leaves the names in the order of their bytes. A round that fails adds
nothing. -/
theorem constNames_run {types : ReturnTypes} {s : SessionState ReturnTypes}
    (hs : Reaches world.session (.start types) s) (packages before : List String) :
    match (constNames packages).run world.session (before, s) with
    | .ok _ (results, _) => ∃ order : List SymbolKey, order.Nodup ∧
        (∀ key, key ∈ order ↔ world.table.Reachable (world.table.topLevelWith packages) key) ∧
        results.Perm (before ++ order.filterMap world.table.constName) ∧
        results.Pairwise fun a b => utf8 a ≤ utf8 b
    | .error _ (results, _) => results = before := by
  rw [Processor.run, constNames_process]
  cases hscan : ConstScan.scan packages world.session ({}, s) with
  | ok _ y =>
    obtain ⟨scan, t⟩ := y
    obtain ⟨order, horder, _, hnoted⟩ := ConstScan.enters packages () ({}, s) (scan, t) []
      (hs.tidy (.start world.table types)) .start hscan
    have hnames : scan.names.Perm (order.dedup.filterMap world.table.constName) := hnoted.names
    refine ⟨order.dedup, List.nodup_dedup order, fun key => ?_, ?_, pairwise_sortTexts _⟩
    · rw [List.mem_dedup]
      exact SymbolTable.mem_of_forest horder
    · exact (perm_sortTexts _).trans (hnames.append_left before)
  | error e y => rfl

/-- A table that knows two constant properties. One of them is declared in a file, in a class, and in a
package; another package declares what the table does not know. -/
def SymbolTable.constants : SymbolTable where
  files := #[{ path := "a.kt", package := "", declarations := [⟨0⟩, ⟨1⟩] }]
  packages := (({} : Std.TreeMap String (List SymbolKey)).insert "lib" [⟨0⟩, ⟨3⟩]).insert "broken" [⟨4⟩]
  symbols := #[
    { name := some "MIN", details := .property { type := ⟨0⟩, flags := { isConst := true } } },
    { name := some "A", details := .classLike { members := [⟨2⟩, ⟨0⟩] } },
    { name := some "MAX", details := .property { type := ⟨0⟩ }, container := some ⟨1⟩,
      source := some { position := ⟨⟨0⟩, 0⟩, keywords := ["public", "const"] } },
    { name := some "x", details := .property { type := ⟨0⟩ } }]
  types := #[{ shape := .dynamic, rendered := "dynamic" }]

/-- A property that is declared in many places is named once, and nothing is named if a package cannot be
read. -/
theorem constNames_run_constants :
    let world : World := { table := .constants }
    (∃ results deferred t, (constNames ["lib", "lib"]).run world.session
        ([], .start world.table.returnTypes) = .ok deferred (results, t) ∧ results = ["MAX", "MIN"]) ∧
      ∃ e results t, (constNames ["broken"]).run world.session
        ([], .start world.table.returnTypes) = .error e (results, t) ∧ results = [] := by
  intro world
  have hstart : Reaches world.session (.start world.table.returnTypes)
      (.start world.table.returnTypes) := .stay
  constructor
  · have hanswer : ((constNames ["lib", "lib"]).run.answer? world.session
        ([], .start world.table.returnTypes)).isSome := by
      decide +kernel
    obtain ⟨deferred, hanswer⟩ := Option.isSome_iff_exists.mp hanswer
    obtain ⟨⟨results, t⟩, hrun⟩ := Action.exists_ok_of_answer? hanswer
    have hadded := constNames_run hstart ["lib", "lib"] []
    rw [hrun] at hadded
    obtain ⟨order, hnodup, hmem, hresults, hsorted⟩ := hadded
    have hlisted : Forest world.table.nestedKeys (world.table.topLevelWith ["lib", "lib"])
        ([⟨0⟩, ⟨1⟩, ⟨2⟩, ⟨0⟩, ⟨0⟩, ⟨3⟩, ⟨0⟩, ⟨3⟩] : List SymbolKey) := by
      have htopLevel : world.table.topLevelWith ["lib", "lib"] = [⟨0⟩, ⟨1⟩, ⟨0⟩, ⟨3⟩, ⟨0⟩, ⟨3⟩] := by
        decide +kernel
      rw [htopLevel]
      exact .cons rfl .nil (.cons rfl (.cons rfl .nil (.cons rfl .nil .nil))
        (.cons rfl .nil (.cons rfl .nil (.cons rfl .nil (.cons rfl .nil .nil)))))
    have horder := SymbolTable.perm_dedup_of_forest hlisted hnodup hmem
    refine ⟨results, deferred, t, hrun, eq_of_perm_of_sorted ?_ hsorted (by decide +kernel)⟩
    refine hresults.trans ((horder.filterMap _).trans ?_)
    decide +kernel
  · have hfailure : ((constNames ["broken"]).run.failure? world.session
        ([], .start world.table.returnTypes)).isSome := by
      decide +kernel
    obtain ⟨e, hfailure⟩ := Option.isSome_iff_exists.mp hfailure
    obtain ⟨⟨results, t⟩, hrun⟩ := Action.exists_error_of_failure? hfailure
    have hkept := constNames_run hstart ["broken"] []
    rw [hrun] at hkept
    exact ⟨e, results, t, hrun, hkept⟩

end SymbolGraph
