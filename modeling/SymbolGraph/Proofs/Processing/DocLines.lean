import SymbolGraph.Processing.DocLines
import SymbolGraph.Proofs.Processing.Nested
import SymbolGraph.Proofs.Text.ByteOrder

/-!
# Documentation lines of a table

The documentation lines of a round can be told from the table: there is one for each class, function and
property that is reachable from the files, and a constructor that was not written borrows the comment of
its class.
-/

namespace SymbolGraph

variable {world : World} {table : SymbolTable} {caches : Caches} {key : SymbolKey}

/-- The documentation line of a class, a function or a property. -/
def SymbolTable.docLine (table : SymbolTable) (key : SymbolKey) : Option String :=
  table.symbols[key.index]?.bind fun symbol =>
    match symbol.details with
    | .classLike _ | .function _ | .property _ =>
      some (DocLine.render symbol.simpleName (table.doc symbol))
    | _ => none

/-- Only functions borrow comments. -/
theorem SymbolTable.doc_of_sort {symbol : SymbolRecord} (h : symbol.details.sort ≠ .function) :
    table.doc symbol = symbol.doc := by
  rw [doc, SymbolRecord.isUnwrittenConstructor]
  cases hdetails : symbol.details with
  | function => exact absurd (congrArg SymbolDetails.sort hdetails) h
  | _ => rfl

namespace Declaration

variable {d : Declaration}

/-- The comment of a declaration is the one that the table tells. -/
theorem docString_yields (hd : d.FoundUnder caches key) :
    Yields world caches d.docString (.plain (· = world.table.doc d.symbol)) := by
  refine .of_genuine fun hgrows hgenuine => ?_
  have hd := hd.grows hgrows
  have hsort := (hd.genuine hgenuine).sort
  cases d with
  | function w => exact FunctionNode.docString_yields (hgenuine.issued_of_lookup hd)
  | classLike w | property w | typeParameter w =>
    exact .pure (SymbolTable.doc_of_sort (by rw [hsort]; exact nofun)).symm

theorem Genuine.docLine (h : d.Genuine table key) (hsort : d.node.kind ≠ .typeParameter) :
    table.docLine key = some (DocLine.render d.simpleName (table.doc d.symbol)) := by
  have hkind := h.sort
  rw [SymbolTable.docLine, h.symbol, Option.bind_some, h.simpleName]
  cases hdetails : d.symbol.details <;> rw [hdetails] at hkind <;> cases d <;>
    first | rfl | exact absurd rfl hsort | cases hkind

theorem Genuine.docLine_of_typeParameter (h : d.Genuine table key)
    (hsort : d.node.kind = .typeParameter) : table.docLine key = none := by
  have hkind := h.sort.trans hsort
  rw [SymbolTable.docLine, h.symbol, Option.bind_some]
  cases hdetails : d.symbol.details <;> rw [hdetails] at hkind <;> first | rfl | cases hkind

end Declaration

namespace DocLine

/-- The lines from before the round, and those of the declarations that were entered. -/
def Collected (table : SymbolTable) (before : List String) (_ : Caches) (lines : List String)
    (visited : List SymbolKey) : Prop :=
  lines = before ++ visited.filterMap table.docLine

theorem tracks (before : List String) :
    Visit.Tracks world DocLine.enter (Collected world.table before) where
  grows h _ := h
  step {x y visited key d} hx hd hlines hok := by
    have hshown := hd.genuine hx.genuine
    -- Everything but a type parameter adds the line that the table tells.
    have hadds (hsort : d.node.kind ≠ .typeParameter) (hok : (do
        let doc ← Visit.ofQuery d.docString
        Visit.change (· ++ [render d.simpleName doc])) world.session x = .ok () y) :
        Tidy world.table y.2 ∧ Collected world.table before y.2.caches y.1 (visited ++ [key]) := by
      obtain ⟨doc, s, hdoc, hok⟩ := Visit.bind_ofQuery_eq_ok hok
      obtain ⟨hs, _, rfl⟩ := (Declaration.docString_yields hd).of_ok hx hdoc
      cases hok
      refine ⟨hs, ?_⟩
      simp only [Collected] at hlines ⊢
      simp [hlines, hshown.docLine hsort]
    cases d with
    | typeParameter w =>
      cases hok
      refine ⟨hx, ?_⟩
      simp only [Collected] at hlines ⊢
      simp [hlines, hshown.docLine_of_typeParameter rfl]
    | classLike w | function w | property w => exact hadds nofun hok

theorem enters (before : List String) :
    Visit.Enters world (Collected world.table before) docLines.process world.table.topLevel := by
  have htracks : Visit.Tracks world DocLine.enter (Collected world.table before) := tracks before
  have hfiles := htracks.newFiles (.done ([] : List Declaration))
  rwa [List.append_nil] at hfiles

end DocLine

/-- After a round there is one line more for each class, function and property that is reachable from the
files, and the lines are in the order of their bytes. -/
theorem docLines_run (honce : world.table.ListedOnce) {types : ReturnTypes}
    {s t : SessionState ReturnTypes} (hs : Reaches world.session (.start types) s)
    {before results : List String} {deferred : List Declaration}
    (h : docLines.run world.session (before, s) = .ok deferred (results, t)) :
    ∃ order : List SymbolKey, order.Nodup ∧
      (∀ key, key ∈ order ↔ world.table.Reachable world.table.topLevel key) ∧
      results.Perm (before ++ order.filterMap world.table.docLine) ∧
      results.Pairwise fun a b => utf8 a ≤ utf8 b := by
  obtain ⟨lines, hprocess, rfl⟩ := Processor.run_eq_ok h
  obtain ⟨order, horder, _, hlines⟩ := DocLine.enters before deferred (before, s) (lines, t) []
    (hs.tidy (.start world.table types)) (List.append_nil before).symm hprocess
  have hlines : lines = before ++ order.filterMap world.table.docLine := hlines
  refine ⟨order, world.table.nodup_of_forest honce horder, fun key => ?_, ?_, ?_⟩
  · exact SymbolTable.mem_of_forest horder
  · rw [← hlines]
    exact perm_sortTexts lines
  · exact pairwise_sortTexts lines

/-- A table that knows a file with a class and a function. The constructor of the class was not written, and
a class is declared in the body of the function. -/
def SymbolTable.documentedClass : SymbolTable where
  files := #[{ path := "a.kt", package := "", declarations := [⟨0⟩, ⟨3⟩] }]
  symbols := #[
    { name := some "A", details := .classLike { constructors := [⟨1⟩], members := [⟨2⟩] },
      source := some { position := ⟨⟨0⟩, 0⟩, doc := some "a box" } },
    { name := none, details := .function { isConstructor := true }, container := some ⟨0⟩ },
    { name := some "p", details := .property { type := ⟨0⟩ }, container := some ⟨0⟩ },
    { name := some "f", details := .function {},
      source := some
        { position := ⟨⟨0⟩, 9⟩, doc := some "runs", body := some (.block [.declaration ⟨4⟩]) } },
    { name := some "L", details := .classLike {}, container := some ⟨3⟩, kind := .inBody }]
  types := #[{ shape := .dynamic, rendered := "dynamic" }]

/-- The constructor has the comment of the class, and the class in the function has its line. -/
theorem docLines_run_documentedClass :
    let world : World := { table := .documentedClass }
    ∃ results t, docLines.run world.session ([], .start world.table.returnTypes) =
        .ok [] (results, t) ∧
      results = ["<init>: a box", "A: a box", "L: null", "f: runs", "p: null"] := by
  intro world
  have honce : world.table.ListedOnce := by decide +kernel
  have hanswer : (docLines.run.answer? world.session ([], .start world.table.returnTypes)).map
      List.isEmpty = some true := by
    decide +kernel
  obtain ⟨deferred, hanswer, hdeferred⟩ := Option.map_eq_some_iff.mp hanswer
  cases List.isEmpty_iff.mp hdeferred
  obtain ⟨⟨results, t⟩, hrun⟩ := Action.exists_ok_of_answer? hanswer
  obtain ⟨order, hnodup, hmem, hresults, hsorted⟩ := docLines_run honce .stay hrun
  have hlisted : Forest world.table.nestedKeys world.table.topLevel
      ([⟨0⟩, ⟨1⟩, ⟨2⟩, ⟨3⟩, ⟨4⟩] : List SymbolKey) :=
    .cons rfl (.cons rfl .nil (.cons rfl .nil .nil)) (.cons rfl (.cons rfl .nil .nil) .nil)
  have horder := SymbolTable.perm_dedup_of_forest hlisted hnodup hmem
  refine ⟨results, t, hrun, eq_of_perm_of_sorted ?_ hsorted (by decide +kernel)⟩
  refine hresults.trans ((horder.filterMap _).trans ?_)
  decide +kernel

end SymbolGraph
