import SymbolGraph.Proofs.Processing.Annotated
import SymbolGraph.Proofs.Walk.Success

/-!
# Searches that succeed

The search for an annotation asks for everything in all files, and one failure ends it. In a well-formed
table it does not fail if the class of every constructor has a qualified name.
-/

namespace SymbolGraph

variable {δ : Type} {world : World} {name : String}

/-! ## Files -/

theorem Visitor.Serves.walkFiles_ends {v : Visitor ReturnTypes δ Unit} (hv : v.Serves world)
    (hclosed : world.table.Closed) (horderly : v.Orderly world.session)
    (hwf : WellFounded (Under world.table)) {files : List FileNode} {es : List (Entity (.node .file))}
    {x : δ × SessionState ReturnTypes} (htidy : Tidy world.table x.2) (hx : Sound world x.2)
    (hfiles : (View.wrapper (.node .file)).list.Shows x.2.caches files es)
    (hes : Entity.AllApt world es) :
    ∃ taken y, ∀ more, Query.walkFiles v (taken + more) files world.session x = .ok true y := by
  induction files generalizing x es with
  | nil => exact ⟨0, x, fun _ => rfl⟩
  | cons file files ih =>
    cases hfiles with | cons hfile hfiles =>
    obtain ⟨he, hes⟩ := List.forall_mem_cons.mp hes
    obtain ⟨taken, y, hwalk, htidy, hy, hgrows⟩ :=
      hv.walk_ends hclosed horderly hwf htidy hx (View.wrapper_node hfile) he
    obtain ⟨taken', z, hrest⟩ := ih htidy hy (View.grows _ hfiles hgrows) hes
    -- As many steps as both need are enough for each.
    refine ⟨taken + taken', z, fun more => ?_⟩
    have hfirst : v.walk (taken + taken' + more) [file.id.node] world.session x = .ok [] y := by
      rw [Nat.add_assoc]
      exact hwalk _
    refine (Action.bind_of_ok hfirst _).trans ?_
    rw [Nat.add_comm taken, Nat.add_assoc]
    exact hrest _

namespace World

/-- The files in scope, as the table tells them. -/
def newFiles (world : World) : Meaning (List (Entity (.node .file))) :=
  (world.glance .newFiles).mapM fun key => world.wrap (.file key)

theorem newFiles_gives (world : World) : world.newFiles.Gives (Entity.AllApt world) := by
  refine .mapM fun key hkey => ?_
  obtain ⟨i, hi, rfl⟩ := List.mem_map.mp hkey
  exact wrap_gives (Entity.apt_file (Array.getElem?_eq_getElem (List.mem_range.mp hi)))

end World

theorem Query.newFiles_answers {caches : Caches} :
    Answers world caches (View.wrapper (.node .file)).list Query.newFiles world.newFiles := by
  refine .bind_ok (.glance .newFiles) ?_
  rintro keys later _ _ rfl
  exact .mapM Query.file_answers _

/-! ## The search -/

namespace Query

theorem annotatedCollector_visit (name : String) (kind : NodeKind) (w : kind.Wrapper) :
    (annotatedCollector name : Visitor ReturnTypes _ _).visit kind w =
      match kind.declaration? w with
      | some d => (annotatedCollector name).declaration d
      | none => pure () := by
  cases kind <;> rfl

/-- The collector asks a declaration for its annotations, and nothing else. -/
theorem annotatedCollector_declaration {d : Declaration} {n : NodeEntity}
    {x : List Declaration × SessionState ReturnTypes} (hx : Sound world x.2)
    (hd : View.declaration.Shows x.2.caches d n) {P : List (Entity (.node .annotationUse)) → Prop}
    (hannotations : (world.declarationAnnotations d.blank).Gives P) :
    ∃ y, (annotatedCollector name).declaration d world.session x = .ok () y ∧ Sound world y.2 ∧
      x.2.caches.Grows y.2.caches := by
  obtain ⟨annotations, _, t, hok, ht, hgrows, _⟩ :=
    (Declaration.annotations_answers hd).exists_ok hannotations hx (.refl _)
  have hrun := Visit.ofQuery_of_ok hok
  by_cases hannotated : annotations.any (·.qualifiedName == some name)
  · refine ⟨(x.1 ++ [d], t), (Action.bind_of_ok hrun _).trans ?_, ht, hgrows⟩
    rw [if_pos hannotated]
    rfl
  · refine ⟨(x.1, t), (Action.bind_of_ok hrun _).trans ?_, ht, hgrows⟩
    rw [if_neg hannotated]
    rfl

theorem annotatedCollector_serves (hclosed : world.table.Closed) (name : String) :
    (annotatedCollector name).Serves world := by
  intro n node x hx hat hapt
  obtain ⟨kind, e⟩ := n
  obtain ⟨h, ⟨w, hw, rfl⟩, rfl⟩ := hat
  have hportrait := (hx.faithful.fits hw).portrait
  have hblank := NodeKind.declaration?_blank kind w
  have hresolve := Visit.ofQuery_of_ok
    (Query.resolve_of_get world.session (hx.faithful.get_of_find hw))
  have haccept := (Action.bind_of_ok hresolve _).trans
    (congrFun (congrFun (annotatedCollector_visit name kind w) world.session) x)
  cases hd : kind.declaration? w with
  | none =>
    rw [hd] at haccept
    exact ⟨x, haccept, hx, .refl _⟩
  | some d =>
    rw [hd] at haccept hblank
    obtain ⟨y, hok, hy, hgrows⟩ := annotatedCollector_declaration hx ⟨w, hw, hd⟩
      (World.declarationAnnotations_gives hclosed hapt hportrait hblank)
    exact ⟨y, haccept.trans hok, hy, hgrows⟩

end Query

/-- In a well-formed table in which the class of every constructor has a qualified name, the search for an
annotation succeeds, whatever the session was asked before. -/
theorem annotatedDeclarations_succeeds {d : Draft} (hloopless : d.Loopless)
    (hcontainers : ∀ key, ¬ Relation.TransGen d.ClassIn key key) (hwellFormed : d.finish.WellFormed)
    (hnameable : ∀ symbol ∈ d.symbols, symbol.details.isConstructor = true →
      ∀ owner ∈ symbol.container, d.Nameable owner) (htable : world.table = d.finish)
    {s : SessionState ReturnTypes} (hs : world.History s) (name : String) :
    ∃ taken found t, ∀ more,
      Query.annotatedDeclarations (taken + more) name world.session s = .ok (some found) t := by
  have hclosed : world.table.Closed := htable ▸ d.closed hcontainers hwellFormed hnameable
  have hwf : WellFounded (Under world.table) := htable ▸ Under.wellFounded_of_loopless hloopless
  obtain ⟨files, es, s', hfiles, hs', hgrows, hshows, hes⟩ :=
    Query.newFiles_answers.exists_ok world.newFiles_gives hs.sound (.refl _)
  -- A walk finds all children where the session is `Sound`; where it is `Tidy`, every way down ends.
  have htidy : Tidy world.table s' :=
    (Query.newFiles_yields.of_ok (hs.reaches.tidy (.start world.table _)) hfiles).1
  obtain ⟨taken, y, hwalk⟩ := (Query.annotatedCollector_serves hclosed name).walkFiles_ends hclosed
    (Query.annotatedCollector_orderly name world.session) hwf (x := ([], s')) htidy hs' hshows hes
  refine ⟨taken, y.1, y.2, fun more => ?_⟩
  have hrun : (Query.walkFiles (Query.annotatedCollector name) (taken + more) files).run []
      world.session s' = .ok (.ok true, y.1) y.2 := by
    rw [Visit.run, hwalk]
  exact (Action.bind_of_ok hfiles _).trans (Action.bind_of_ok hrun _)

/-- A draft with a class that bears a mark and has a constructor. The mark is a class, too; its constructor
has a parameter with a default. -/
def Draft.markedConstructor : Draft where
  files := #[{ path := "a.kt", package := "", declarations := [⟨0⟩, ⟨2⟩] }]
  symbols := #[
    { name := some "A", details := .classLike { constructors := [⟨1⟩] }, file := some ⟨0⟩
      annotations := [⟨0⟩] },
    { name := none, details := .function { isConstructor := true }, kind := .classMember
      container := some ⟨0⟩, file := some ⟨0⟩ },
    { name := some "Mark", details := .classLike { constructors := [⟨3⟩] }, file := some ⟨0⟩ },
    { name := none, details := .function { isConstructor := true, valueParameters := [⟨4⟩] }
      kind := .classMember, container := some ⟨2⟩, file := some ⟨0⟩ },
    { name := some "n", details := .valueParameter { type := ⟨0⟩ }, container := some ⟨3⟩
      file := some ⟨0⟩, source := some { position := ⟨⟨0⟩, 0⟩, defaultValue := some ⟨0⟩ } }]
  types := #[.ofClass "Int"]
  annotations := #[{ className := some "Mark" }]
  expressions := #[some (.int 1)]

theorem annotatedDeclarations_succeeds_markedConstructor :
    let world : World := { table := Draft.markedConstructor.finish }
    Draft.markedConstructor.Loopless ∧ Draft.markedConstructor.finish.WellFormed ∧
      ∃ taken found t, ∀ more, Query.annotatedDeclarations (taken + more) "Mark" world.session
        (.start world.table.returnTypes) = .ok (some found) t := by
  intro world
  have hloopless : Draft.markedConstructor.Loopless :=
    (Draft.Acyclic.of_lt (by decide +kernel) (by decide +kernel)).loopless
  have hcontainers := Draft.markedConstructor.not_transGen_classIn_of_lt (by decide +kernel)
  have hwellFormed : Draft.markedConstructor.finish.WellFormed := by decide +kernel
  have hnamed : ∀ symbol ∈ Draft.markedConstructor.symbols, symbol.details.isConstructor = true →
      ∀ owner ∈ symbol.container,
        (Draft.qualifiedClassName Draft.markedConstructor.symbols owner).isSome := by decide +kernel
  have hnameable : ∀ symbol ∈ Draft.markedConstructor.symbols, symbol.details.isConstructor = true →
      ∀ owner ∈ symbol.container, Draft.markedConstructor.Nameable owner := by
    intro symbol hsymbol hconstructor owner howner
    obtain ⟨name, hname⟩ := Option.isSome_iff_exists.mp (hnamed symbol hsymbol hconstructor owner howner)
    exact Draft.nameable_of_qualifiedClassName hname
  exact ⟨hloopless, hwellFormed,
    annotatedDeclarations_succeeds hloopless hcontainers hwellFormed hnameable rfl .start "Mark"⟩

/-- A draft with a function that has a class with a constructor in its body. -/
def Draft.localClass : Draft where
  files := #[{ path := "a.kt", package := "", declarations := [⟨0⟩] }]
  symbols := #[
    { name := some "f", details := .function {}, file := some ⟨0⟩
      source := some { position := ⟨⟨0⟩, 0⟩, body := some (.block [.declaration ⟨1⟩]) } },
    { name := some "L", details := .classLike { constructors := [⟨2⟩] }, kind := .inBody
      container := some ⟨0⟩, file := some ⟨0⟩ },
    { name := none, details := .function { isConstructor := true }, kind := .classMember
      container := some ⟨1⟩, file := some ⟨0⟩ }]

/-- No types are derived for a class that is local to a body, so its constructor has no return type. -/
theorem annotatedDeclarations_fails_localClass :
    let world : World := { table := Draft.localClass.finish }
    Draft.localClass.Loopless ∧ (∀ key, ¬ Relation.TransGen Draft.localClass.ClassIn key key) ∧
      Draft.localClass.finish.WellFormed ∧ ∃ t, Query.annotatedDeclarations 10 "X" world.session
        (.start world.table.returnTypes) = .error (.oracle (.unknownSymbol ⟨1⟩)) t := by
  intro world
  have hacyclic : Draft.localClass.Acyclic := .of_lt (by decide +kernel) (by decide +kernel)
  have hcontainers := Draft.localClass.not_transGen_classIn_of_lt (by decide +kernel)
  exact ⟨hacyclic.loopless, hcontainers, by decide +kernel,
    Action.exists_error_of_failure? (by decide +kernel)⟩

end SymbolGraph
