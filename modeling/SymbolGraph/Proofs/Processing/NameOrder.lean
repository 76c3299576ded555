import Mathlib.Data.List.Permutation
import SymbolGraph.Proofs.Processing.DocLines

/-!
# Documentation lines by name

The order of the documentation lines is that of the lines and not that of the names. Each name is compared
with the colon behind it, so a longer name may come before the one that it goes on from, if it goes on with
a digit or with another character below the colon.
-/

namespace SymbolGraph

variable {world : World} {table : SymbolTable} {key : SymbolKey}

/-! ## Names with a mark behind them -/

section Marked

variable {α : Type} [LinearOrder α] {mark : α} {xs ys us vs : List α}

/-- What comes behind the marks makes no difference, if no mark is in the lists themselves. -/
theorem append_lt_of_marked (hx : mark ∉ xs) (hy : mark ∉ ys) (h : xs ++ [mark] < ys ++ [mark]) :
    xs ++ mark :: us < ys ++ mark :: vs := by
  -- Where one list is over it shows the mark, and that is not in the other one.
  induction xs generalizing ys with
  | nil =>
    cases ys with
    | nil => exact absurd h (List.lt_irrefl _)
    | cons y ys =>
      rcases List.cons_lt_cons_iff.mp h with hlt | ⟨rfl, _⟩
      · exact List.cons_lt_cons_iff.mpr (.inl hlt)
      · exact absurd List.mem_cons_self hy
  | cons x xs ih =>
    cases ys with
    | nil =>
      rcases List.cons_lt_cons_iff.mp h with hlt | ⟨rfl, _⟩
      · exact List.cons_lt_cons_iff.mpr (.inl hlt)
      · exact absurd List.mem_cons_self hx
    | cons y ys =>
      rw [List.cons_append, List.cons_append, List.cons_lt_cons_iff] at h ⊢
      exact h.imp_right fun ⟨heq, h⟩ =>
        ⟨heq, ih (List.not_mem_of_not_mem_cons hx) (List.not_mem_of_not_mem_cons hy) h⟩

/-- The marks change the order of two lists only if one goes on from the other below the mark. -/
theorem exists_eq_append_of_marked (hlt : xs < ys) (h : ¬ xs ++ [mark] < ys ++ [mark]) :
    ∃ y rest, y < mark ∧ ys = xs ++ y :: rest := by
  induction xs generalizing ys with
  | nil =>
    cases ys with
    | nil => exact absurd hlt (List.lt_irrefl _)
    | cons y rest =>
      rw [List.nil_append, List.cons_append, List.cons_lt_cons_iff, not_or] at h
      refine ⟨y, rest, lt_of_le_of_ne (not_lt.mp h.1) fun heq => h.2 ⟨heq.symm, ?_⟩, rfl⟩
      cases rest <;> exact List.nil_lt_cons _ _
  | cons x xs ih =>
    cases ys with
    | nil => cases hlt
    | cons y ys =>
      rw [List.cons_append, List.cons_append, List.cons_lt_cons_iff, not_or] at h
      rcases List.cons_lt_cons_iff.mp hlt with hfirst | ⟨rfl, hrest⟩
      · exact absurd hfirst h.1
      · obtain ⟨y, rest, hy, rfl⟩ := ih hrest fun hmarked => h.2 ⟨rfl, hmarked⟩
        exact ⟨y, rest, hy, rfl⟩

end Marked

/-! ## Lines and their names -/

/-- The name in front of the line of a declaration. -/
def SymbolTable.simpleName? (table : SymbolTable) (key : SymbolKey) : Option String :=
  table.symbols[key.index]?.map SymbolRecord.simpleName

theorem DocLine.toList_render (name : String) (doc : Option String) :
    ∃ rest, (render name doc).toList = name.toList ++ ':' :: rest := by
  cases doc with
  | none => exact ⟨_, String.toList_append⟩
  | some doc =>
    refine ⟨' ' :: escapeBreaks doc.toList, ?_⟩
    rw [render, String.toList_append, String.toList_append, String.toList_ofList (l := escapeBreaks _),
      List.append_assoc]
    rfl

theorem SymbolTable.toList_of_docLine {line name : String} (hline : table.docLine key = some line)
    (hname : table.simpleName? key = some name) : ∃ rest, line.toList = name.toList ++ ':' :: rest := by
  obtain ⟨symbol, hsymbol, rfl⟩ := Option.map_eq_some_iff.mp hname
  rw [docLine, hsymbol, Option.bind_some] at hline
  cases hdetails : symbol.details <;> rw [hdetails] at hline <;> cases hline <;>
    exact DocLine.toList_render _ _

/-- The lines of the first round, told from the table. -/
theorem DocLine.results_eq {types : ReturnTypes} {s t : SessionState ReturnTypes}
    (hs : Reaches world.session (.start types) s) {results : List String} {deferred : List Declaration}
    (h : docLines.run world.session ([], s) = .ok deferred (results, t)) :
    ∃ visited : List SymbolKey, Forest world.table.nestedKeys world.table.topLevel visited ∧
      results = sortTexts (visited.filterMap world.table.docLine) := by
  obtain ⟨lines, hprocess, rfl⟩ := Processor.run_eq_ok h
  obtain ⟨visited, hvisited, _, hlines⟩ := DocLine.enters [] deferred ([], s) (lines, t) []
    (hs.tidy (.start world.table types)) rfl hprocess
  exact ⟨visited, hvisited, congrArg sortTexts hlines⟩

/-- Of two lines in order, the names are in order with a colon behind each. -/
theorem utf8_le_of_marked {a b line line' : String} {rest rest' : List Char} (ha : ':' ∉ a.toList)
    (hb : ':' ∉ b.toList) (hline : line.toList = a.toList ++ ':' :: rest)
    (hline' : line'.toList = b.toList ++ ':' :: rest') (hle : utf8 line ≤ utf8 line') :
    utf8 (a ++ ":") ≤ utf8 (b ++ ":") ∧
      (utf8 b < utf8 a → ∃ c rest, c < ':' ∧ a.toList = b.toList ++ c :: rest) := by
  have hmarked : ¬ b.toList ++ [':'] < a.toList ++ [':'] := fun hlt => by
    refine List.not_lt.mpr hle (utf8_lt_utf8_iff.mpr (String.lt_iff_toList_lt.mpr ?_))
    rw [hline, hline']
    exact append_lt_of_marked hb ha hlt
  refine ⟨List.not_lt.mp fun hlt => hmarked ?_, fun hlt => ?_⟩
  · have hlt := String.lt_iff_toList_lt.mp (utf8_lt_utf8_iff.mp hlt)
    rwa [String.toList_append, String.toList_append] at hlt
  · exact exists_eq_append_of_marked (String.lt_iff_toList_lt.mp (utf8_lt_utf8_iff.mp hlt)) hmarked

/-- After the first round each line has the declaration that it is about, and the lines are in the order of
their names with a colon behind each of them. A name without a colon only comes before a lower one if it
goes on from that one below the colon. -/
theorem docLines_nameOrder {types : ReturnTypes} {s t : SessionState ReturnTypes}
    (hs : Reaches world.session (.start types) s) {results : List String} {deferred : List Declaration}
    (h : docLines.run world.session ([], s) = .ok deferred (results, t)) :
    ∃ visited order : List SymbolKey,
      Forest world.table.nestedKeys world.table.topLevel visited ∧
      order.Perm (visited.filter fun key => (world.table.docLine key).isSome) ∧
      order.map world.table.docLine = results.map some ∧
      order.Pairwise fun key later => ∀ a b : String,
        world.table.simpleName? key = some a → world.table.simpleName? later = some b →
        ':' ∉ a.toList → ':' ∉ b.toList →
        utf8 (a ++ ":") ≤ utf8 (b ++ ":") ∧
          (utf8 b < utf8 a → ∃ c rest, c < ':' ∧ a.toList = b.toList ++ c :: rest) := by
  obtain ⟨visited, hvisited, rfl⟩ := DocLine.results_eq hs h
  have hperm : ((sortTexts (visited.filterMap world.table.docLine)).map some).Perm
      ((visited.filter fun key => (world.table.docLine key).isSome).map world.table.docLine) := by
    refine ((perm_sortTexts _).map some).trans (.of_eq ?_)
    rw [List.map_filterMap_some_eq_filter_map_isSome, List.filter_map]
    rfl
  -- Sorting the lines moves the declarations along with them.
  obtain ⟨order, horder, hmoved⟩ :=
    (congrFun (congrFun (List.eq_map_comp_perm world.table.docLine) _) _).mpr hperm
  refine ⟨visited, order, hvisited, hmoved, horder.symm, ?_⟩
  have hsorted : order.Pairwise fun key later => ∀ line line' : String,
      world.table.docLine key = some line → world.table.docLine later = some line' → utf8 line ≤ utf8 line' := by
    rw [← List.pairwise_map (R := fun x y => ∀ line line', x = some line → y = some line' → utf8 line ≤ utf8 line'),
      ← horder, List.pairwise_map]
    refine (pairwise_sortTexts _).imp fun hle line line' hline hline' => ?_
    cases hline
    cases hline'
    exact hle
  have hline {key : SymbolKey} (hkey : key ∈ order) : ∃ line, world.table.docLine key = some line :=
    Option.isSome_iff_exists.mp (List.mem_filter.mp (hmoved.subset hkey)).2
  refine hsorted.imp_of_mem fun hkey hlater hle a b ha hb hcolon hcolon' => ?_
  obtain ⟨line, hkey⟩ := hline hkey
  obtain ⟨line', hlater⟩ := hline hlater
  obtain ⟨rest, hrest⟩ := SymbolTable.toList_of_docLine hkey ha
  obtain ⟨rest', hrest'⟩ := SymbolTable.toList_of_docLine hlater hb
  exact utf8_le_of_marked hcolon hcolon' hrest hrest' (hle line line' hkey hlater)

/-- A table that knows a file with two properties. The name of one goes on from that of the other with a digit. -/
def SymbolTable.numberedName : SymbolTable where
  files := #[{ path := "a.kt", package := "", declarations := [⟨0⟩, ⟨1⟩] }]
  symbols := #[
    { name := some "X", details := .property { type := ⟨0⟩ } },
    { name := some "X1", details := .property { type := ⟨0⟩ } }]
  types := #[{ shape := .dynamic, rendered := "dynamic" }]

theorem SymbolTable.forest_numberedName :
    Forest SymbolTable.numberedName.nestedKeys SymbolTable.numberedName.topLevel [⟨0⟩, ⟨1⟩] :=
  .cons rfl .nil (.cons rfl .nil .nil)

theorem DocLine.run_numberedName :
    let world : World := { table := .numberedName }
    ∃ t, docLines.run world.session ([], .start world.table.returnTypes) =
      .ok [] (["X1: null", "X: null"], t) := by
  intro world
  have hanswer : (docLines.run.answer? world.session ([], .start world.table.returnTypes)).map
      List.isEmpty = some true := by
    decide +kernel
  obtain ⟨deferred, hanswer, hdeferred⟩ := Option.map_eq_some_iff.mp hanswer
  cases List.isEmpty_iff.mp hdeferred
  obtain ⟨⟨results, t⟩, hrun⟩ := Action.exists_ok_of_answer? hanswer
  obtain ⟨visited, hvisited, hresults⟩ := DocLine.results_eq .stay hrun
  cases hvisited.unique SymbolTable.forest_numberedName
  have hsorted : results = ["X1: null", "X: null"] := by
    rw [hresults]
    refine eq_of_perm_of_sorted ((perm_sortTexts _).trans ?_) (pairwise_sortTexts _) (by decide +kernel)
    decide +kernel
  exact ⟨t, hsorted ▸ hrun⟩

/-- The line of `X1` comes before that of `X`, and the names are in the other order. -/
theorem docLines_reversed_numberedName :
    let world : World := { table := .numberedName }
    ∃ results t, docLines.run world.session ([], .start world.table.returnTypes) =
        .ok [] (results, t) ∧
      results = [⟨1⟩, ⟨0⟩].filterMap world.table.docLine ∧ results.length = 2 ∧
      world.table.simpleName? ⟨1⟩ = some "X1" ∧ world.table.simpleName? ⟨0⟩ = some "X" ∧
      ':' ∉ "X1".toList ∧ ':' ∉ "X".toList ∧ ¬ utf8 "X1" ≤ utf8 "X" := by
  intro world
  obtain ⟨t, hrun⟩ := DocLine.run_numberedName
  refine ⟨_, t, hrun, ?_, rfl, rfl, rfl, ?_, ?_, ?_⟩ <;> decide +kernel

/-- With a colon behind them `X1` comes before `X`. -/
theorem docLines_nameOrder_numberedName :
    let world : World := { table := .numberedName }
    ∃ results t, docLines.run world.session ([], .start world.table.returnTypes) =
        .ok [] (results, t) ∧
      ∃ order : List SymbolKey, order.map world.table.docLine = results.map some ∧ order = [⟨1⟩, ⟨0⟩] := by
  intro world
  obtain ⟨t, hrun⟩ := DocLine.run_numberedName
  obtain ⟨visited, order, hvisited, hperm, hlines, hnames⟩ := docLines_nameOrder .stay hrun
  refine ⟨_, t, hrun, order, hlines, ?_⟩
  cases hvisited.unique SymbolTable.forest_numberedName
  have horder : order ∈ List.permutations' ([⟨0⟩, ⟨1⟩] : List SymbolKey) :=
    List.mem_permutations'.mpr hperm
  rcases List.mem_pair.mp horder with rfl | rfl
  · have hle := (List.pairwise_pair.mp hnames "X" "X1" rfl rfl (by decide +kernel) (by decide +kernel)).1
    exact absurd hle (by decide +kernel)
  · rfl

end SymbolGraph
