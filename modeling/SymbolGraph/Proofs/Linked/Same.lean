import SymbolGraph.Proofs.Linked.Run
import SymbolGraph.Proofs.Processing.Annotated

/-!
# The same declaration

In a session over a table a symbol is wrapped as what the table says it is, and once. So two
declarations are the same node if and only if they are of one symbol, in whatever ways the caller came
to them.
-/

namespace SymbolGraph

variable {σ α : Type} {session : Session σ} {oracle : σ} {world : World} {table : SymbolTable}
  {caches : Caches} {kind : Kind} {name : String} {d e : Declaration} {s t : SessionState σ}

/-! ## Ways to declarations -/

/-- A wrapper as a declaration, if it is one. -/
def Kind.declaration? : (kind : Kind) → kind.Wrapper → Option Declaration
  | .node kind, w => kind.declaration? w
  | .resolvedType, _ => none

/-- A way to declarations: the answer to any operation, the declaration around a declaration, one of
those in a package, a class by its name, or the search for an annotation. -/
inductive Route
  | answer {α : Type} (op : Operation α)
  | parentDeclaration (node : NodeId)
  | inPackage (package : String) (position : Nat)
  | classByName (name : String)
  | annotated (steps : Nat) (name : String)

/-- The declarations at the end of a way. -/
def Route.query : Route → Query σ (List Declaration)
  | answer op => do
    return (op.wrappers (← op.query)).filterMap fun x => x.1.declaration? x.2
  | parentDeclaration node => do
    match ← Query.nodeDeclaration node with
    | some d => return (← d.parentDeclaration).toList
    | none => return []
  | inPackage package position => do
    return (← Query.item (← Query.packageKeys package) position Query.declaration).toList
  | classByName name => do
    return ((← Query.classByName name).map Declaration.classLike).toList
  | annotated steps name => do
    return (← Query.annotatedDeclarations steps name).getD []

/-- A run of a session in which the caller came to these declarations. -/
inductive Gathers (session : Session σ) (s : SessionState σ) :
    List Declaration → SessionState σ → Prop
  | start : Gathers session s [] s
  | go {held : List Declaration} {t u : SessionState σ} : Gathers session s held t →
    Reaches session t u → Gathers session s held u
  | follow {held : List Declaration} {t : SessionState σ} (route : Route) :
    Gathers session s held t →
    Gathers session s (held ++ (route.query.answer? session t).getD [])
      (route.query.after session t)

/-! ## Queries in runs -/

/-- The query does nothing that operations do not do. -/
abbrev Runs (session : Session σ) (oracle : σ) (caches : Caches) (q : Query σ α) (F : Fact α) :
    Prop :=
  Sustains session (Reaches session (.start oracle)) caches q F

theorem Reaches.of_sameSession (h : s.SameSession t) : Reaches session s t := by
  have hdisturbed : Reaches session s { s with oracle := t.oracle } := .disturb t.oracle .stay
  have hsame : { s with oracle := t.oracle } = t := by
    obtain ⟨hcaches, hmemo⟩ := h
    cases t
    cases hcaches
    cases hmemo
    rfl
  exact hsame ▸ hdisturbed

namespace Runs

variable {q : Query σ α} {F : Fact α}

/-- What operations do keeps a session linked. -/
theorem of_links (h : Links session False caches q F)
    (hrun : ∀ s, caches.Grows s.caches → Reaches session s (q.after session s)) :
    Runs session oracle caches q F := by
  intro s hs hgrows
  obtain ⟨_, hlater, hfact⟩ := h s (hs.linked (.start oracle)) hgrows
  exact ⟨hs.trans (hrun s hgrows), hlater, hfact⟩

theorem consult (h : Consult q) : Runs session oracle caches q .any :=
  .of_links (.consult h) fun s _ => .of_sameSession (h.sameSession session s)

theorem operation (op : Operation α) : Runs session oracle caches op.query (.shows op.wrappers) :=
  .of_links (op.query_links False.elim) fun _ _ => .operate op .stay

theorem wrapping (w : Wrapping kind) : Runs session oracle caches w.query (.known kind) :=
  .of_links (w.query_links False.elim) fun _ _ => .operate (.wrap w) .stay

theorem declaration (key : SymbolKey) :
    Runs session oracle caches (Query.declaration key) .declaration :=
  .of_links (Query.declaration_links key) fun _ _ => .operate (.declaration key) .stay

theorem nodeDeclaration (node : NodeId) :
    Runs session oracle caches (Query.nodeDeclaration node) (.option .declaration) :=
  .of_links (Query.nodeDeclaration_links node) fun _ _ => .operate (.nodeDeclaration node) .stay

theorem parent (hd : d.Issued caches) : Runs session oracle caches d.parent .any := by
  refine .of_links d.parent_links.to_any fun s hgrows => ?_
  cases d with
  | classLike w => exact .read (hd.grows hgrows) (.field .classParent)
  | function w => exact .read (hd.grows hgrows) (.field .functionParent)
  | property w => exact .read (hd.grows hgrows) (.field .propertyParent)
  | typeParameter w => exact .read (hd.grows hgrows) (.field .typeParameterParent)

theorem parentDeclaration (hd : d.Issued caches) :
    Runs session oracle caches d.parentDeclaration (.option .declaration) := by
  refine .bind (parent hd) fun {parent _} _ _ => ?_
  cases parent with
  | none => exact .pure Fact.option_none
  | some parent => exact nodeDeclaration parent

theorem newFiles : Runs session oracle caches Query.newFiles .any :=
  .bind (consult (.glance .newFiles)) fun {keys _} _ _ =>
    (Sustains.mapM_each (fun key => wrapping (.file key)) keys).to_any

end Runs

/-! ## The search for an annotation -/

/-- The session came from a state, and the declarations collected so far are its own. -/
def Collected (session : Session σ) (s : SessionState σ)
    (x : List Declaration × SessionState σ) : Prop :=
  Reaches session s x.2 ∧ (Fact.each .declaration).Holds x.2.caches x.1

namespace Collected

variable {x : List Declaration × SessionState σ} (hs : Linked False s)

include hs

/-- The collector adds no declaration but the one that it is shown. -/
theorem declaration (hx : Collected session s x) (hd : d.Issued x.2.caches) :
    (Fact.each .declaration).Holds
      (((Query.annotatedCollector name).declaration d).after session x).2.caches
      (((Query.annotatedCollector name).declaration d).after session x).1 := by
  have hgrows : x.2.caches.Grows (d.annotations.after session x.2).caches :=
    (Declaration.annotations_links hd x.2 (hx.1.linked hs) (.refl _)).2.1
  let Own (y : List Declaration × SessionState σ) := (Fact.each .declaration).Holds y.2.caches y.1
  have hfirst : Own ((Visit.ofQuery d.annotations).after session x) := by
    rw [Visit.ofQuery_after]
    exact Fact.grows _ hx.2 hgrows
  refine Action.after_bind (P := Own) hfirst fun {annotations y} hok => ?_
  rw [Action.after_of_ok hok] at hfirst
  rw [Action.after_of_ok (Visit.ofQuery_eq_ok hok)] at hgrows
  split
  · exact List.forall_mem_append.mpr ⟨hfirst, List.forall_mem_singleton.mpr (hd.grows hgrows)⟩
  · exact hfirst

theorem accept (hx : Collected session s x) (node : NodeId) :
    Collected session s ((node.accept (Query.annotatedCollector name)).after session x) := by
  refine ⟨hx.1.trans (Query.annotatedCollector_orderly name session node x), ?_⟩
  let Own (y : List Declaration × SessionState σ) := (Fact.each .declaration).Holds y.2.caches y.1
  refine NodeId.after_accept (P := Own) hx.2 fun w hresolve => ?_
  have hw := (Query.resolve_eq_ok hresolve).1
  have hknown : x.2.caches.Issued ((Kind.node node.kind).idOf w) w := by
    rw [(hx.1.linked hs).wellFormed.idOf_eq hw]
    exact hw
  obtain ⟨kind, index⟩ := node
  cases kind
  case classLike => exact hx.declaration (d := .classLike w) hs hknown
  case function => exact hx.declaration (d := .function w) hs hknown
  case property => exact hx.declaration (d := .property w) hs hknown
  case typeParameter => exact hx.declaration (d := .typeParameter w) hs hknown
  -- The collector leaves everything alone that is no declaration.
  all_goals exact hx.2

theorem walk (hx : Collected session s x) (steps : Nat) (stack : List NodeId) :
    Collected session s (((Query.annotatedCollector name).walk steps stack).after session x) := by
  refine Visitor.walk_invariant (fun node y hy => hy.accept hs node) ?_ steps stack hx
  intro node y hy
  have hread : Reaches session y.2 (node.children.after session y.2) :=
    .operate (.read node.handle .children) .stay
  exact ⟨hy.1.trans hread, Fact.grows _ hy.2 hread.grows.caches⟩

theorem walkFiles (hx : Collected session s x) (steps : Nat) (files : List FileNode) :
    Collected session s
      ((Query.walkFiles (Query.annotatedCollector name) steps files).after session x) := by
  induction files generalizing x with
  | nil => exact hx
  | cons file files ih =>
    have hwalk : Collected session s
        (((Query.annotatedCollector name).walk steps [file.id.node]).after session x) :=
      hx.walk hs steps [file.id.node]
    refine Action.after_bind hwalk fun {left y} hok => ?_
    rw [Action.after_of_ok hok] at hwalk
    cases left with
    | nil => exact ih hwalk
    | cons => exact hwalk

end Collected

theorem Runs.annotatedDeclarations (steps : Nat) (name : String) :
    Runs session oracle caches (Query.annotatedDeclarations steps name)
      (.option (.each .declaration)) := by
  refine .bind newFiles fun {files later} _ _ => ?_
  have hwalk : Runs session oracle later
      ((Query.walkFiles (Query.annotatedCollector name) steps files).run [])
      (.second (.each .declaration)) := by
    refine .run fun s hs _ => ?_
    have hstart : Collected session s ([], s) := ⟨.stay, List.forall_mem_nil _⟩
    obtain ⟨hrun, hfound⟩ := hstart.walkFiles (hs.linked (.start oracle)) steps files
    exact ⟨hs.trans hrun, hrun.grows.caches, hfound⟩
  refine .bind hwalk fun {ended _} _ hfound => ?_
  obtain ⟨outcome, found⟩ := ended
  cases outcome with
  | error e => exact .throw e
  | ok finished =>
    cases finished with
    | true => exact .pure (Fact.option_some hfound)
    | false => exact .pure Fact.option_none

/-! ## What is found -/

theorem Fact.declarations_of_shown {ws : List (Sigma Kind.Wrapper)}
    (h : ∀ x ∈ ws, caches.Issued (x.1.idOf x.2) x.2) :
    ∀ d ∈ ws.filterMap fun x => x.1.declaration? x.2, d.Issued caches := by
  intro d hd
  obtain ⟨⟨kind, w⟩, hx, hd⟩ := List.mem_filterMap.mp hd
  have hw := h _ hx
  rcases kind with (_ | _) | _ <;> cases hd <;> exact hw

theorem Fact.each_toList {F : Fact α} {a : Option α} (h : F.option.Holds caches a) :
    F.each.Holds caches a.toList :=
  fun b hb => h b (Option.mem_toList.mp hb)

/-- Every way ends at declarations of the session. -/
theorem Route.query_runs (route : Route) :
    Runs session oracle caches route.query (.each .declaration) := by
  cases route with
  | answer op => exact .map (Runs.operation op) Fact.declarations_of_shown
  | parentDeclaration node =>
    refine .bind (Runs.nodeDeclaration node) fun {d _} _ hd => ?_
    cases d with
    | none => exact .pure (List.forall_mem_nil _)
    | some d => exact .map (Runs.parentDeclaration (hd d rfl)) Fact.each_toList
  | inPackage package position =>
    refine .bind (Runs.consult (.glance (.declarationsInPackage package))) fun {keys _} _ _ => ?_
    refine .map (F := .option .declaration) ?_ Fact.each_toList
    unfold Query.item
    split
    · exact .map (Runs.declaration _) Fact.option_some
    · exact .pure Fact.option_none
  | classByName name =>
    refine .map (F := .option (.known (.node .classLike))) ?_ fun {c _} hc => ?_
    · refine .bind (Runs.consult (.glance (.classByName name))) fun {key _} _ _ => ?_
      cases key with
      | none => exact .pure Fact.option_none
      | some key => exact .map (Runs.wrapping (.classLike key)) Fact.option_some
    · intro d hd
      obtain ⟨w, hw, rfl⟩ := Option.map_eq_some_iff.mp (Option.mem_toList.mp hd)
      exact hc w hw
  | annotated steps name =>
    refine .map (Runs.annotatedDeclarations steps name) fun {found _} hfound => ?_
    cases found with
    | none => exact List.forall_mem_nil _
    | some found => exact hfound found rfl

/-- All declarations that the caller came to are of the session. -/
theorem Gathers.issued {held : List Declaration} (h : Gathers session (.start oracle) held s) :
    Reaches session (.start oracle) s ∧ ∀ d ∈ held, d.Issued s.caches := by
  induction h with
  | start => exact ⟨.stay, List.forall_mem_nil _⟩
  | go _ hrun ih => exact ⟨ih.1.trans hrun, fun d hd => (ih.2 d hd).grows hrun.grows.caches⟩
  | @follow held t route _ ih =>
    -- The session goes on from where the way led, also if it came to nothing.
    obtain ⟨hlaw, hgrows, hfact⟩ := route.query_runs t ih.1 (.refl _)
    refine ⟨hlaw, List.forall_mem_append.mpr ⟨fun d hd => (ih.2 d hd).grows hgrows, ?_⟩⟩
    rw [Action.answer?, Action.after]
    cases hrun : route.query session t with
    | ok ds u => exact hfact hrun
    | error e u => exact List.forall_mem_nil _

/-! ## Symbols and nodes -/

/-- A declaration of the session is the wrapper of its symbol. -/
theorem Declaration.Issued.found (hd : d.Issued caches) (hgenuine : caches.Genuine table) :
    d.FoundUnder caches d.key := by
  cases d <;> exact (NodeKind.found_of_declaration? hgenuine hd rfl).2

/-- In every state of every run over a table, a symbol is wrapped as the kind of declaration that the
table says it is, and as no other. So of all declarations that the caller came to in the course of the
run, two are the same if and only if they are of one symbol. -/
theorem isSame_iff_key_eq {types : ReturnTypes} {s : SessionState ReturnTypes} {held : List Declaration}
    (h : Gathers world.session (.start types) held s) :
    (∀ {key : SymbolKey} {d : Declaration}, d.FoundUnder s.caches key →
      d.key = key ∧ ∃ symbol, world.table.symbols[key.index]? = some symbol ∧
        symbol.details.sort = d.node.kind) ∧
    (∀ {key : SymbolKey} {d e : Declaration}, d.FoundUnder s.caches key →
      e.FoundUnder s.caches key → d = e) ∧
    ∀ d ∈ held, ∀ e ∈ held, d.isSame e = true ↔ d.key = e.key := by
  obtain ⟨hrun, hheld⟩ := h.issued
  have hgenuine : s.caches.Genuine world.table := (hrun.tidy (.start world.table types)).genuine
  refine ⟨fun hd => ?_, fun hd he => hd.unique he hgenuine, fun d hd e he => ?_⟩
  · have hd := hd.genuine hgenuine
    exact ⟨hd.key_eq, _, hd.symbol, hd.sort⟩
  · have hd := (hheld d hd).found hgenuine
    have he := (hheld e he).found hgenuine
    rw [Declaration.isSame, beq_iff_eq]
    constructor
    · exact hd.key_unique hgenuine he
    · intro hkey
      rw [hkey] at hd
      rw [hd.unique he hgenuine]

/-- A class, and what bears a mark in its file: the class itself among others. -/
theorem isSame_iff_key_eq_markedClass :
    let world : World := { table := .markedClass }
    ∃ held s, Gathers world.session (.start world.table.returnTypes) held s ∧
      held.map Declaration.key = [⟨0⟩, ⟨0⟩, ⟨1⟩, ⟨3⟩, ⟨0⟩] ∧
      ∀ d ∈ held, ∀ e ∈ held, d.isSame e = true ↔ d.key = e.key := by
  intro world
  have hheld : Gathers world.session (.start world.table.returnTypes) _ _ :=
    ((Gathers.start.follow (.answer (.declaration ⟨0⟩))).follow (.annotated 20 "Mark")).follow
      (.parentDeclaration ⟨.function, 0⟩)
  exact ⟨_, _, hheld, by decide +kernel, (isSame_iff_key_eq hheld).2.2⟩

end SymbolGraph
