import SymbolGraph.Processing.Processor
import SymbolGraph.Proofs.Session.Memo
import SymbolGraph.Proofs.Tidy.Listing
import SymbolGraph.Proofs.Walk.Forest
import SymbolGraph.Proofs.Walk.Termination

/-!
# Declarations that bear an annotation

The search for an annotation walks all files and asks every declaration on its way for its
annotations. What it finds can be told from the table alone: the declarations in preorder, as the
files and the symbols list them, and of these the ones that bear the annotation.
-/

namespace SymbolGraph

variable {σ δ α : Type} {world : World} {table : SymbolTable} {caches : Caches} {name : String}
  {key : SymbolKey} {node : NodeId} {nodes : List NodeId}

/-! ## What the table lists -/

/-- Whether an annotation of a symbol is one of the symbol itself. That of a property may be aimed at
an accessor. -/
def SymbolRecord.owns (symbol : SymbolRecord) (record : AnnotationRecord) : Bool :=
  match symbol.details with
  | .property _ => !record.target.any UseSiteTarget.isAccessor
  | _ => true

namespace SymbolTable

/-- Whether a symbol bears an annotation of this name. -/
def isAnnotated (table : SymbolTable) (name : String) (key : SymbolKey) : Bool :=
  table.symbols[key.index]?.any fun symbol => symbol.annotations.any fun a =>
    table.annotations[a.index]?.any fun record =>
      symbol.owns record && record.className == some name

/-- The declarations in a declaration. -/
def listing (table : SymbolTable) (key : SymbolKey) : Option (List SymbolKey) :=
  table.symbols[key.index]?.bind fun symbol =>
    if symbol.details.sort.isDeclaration then some symbol.contents else none

theorem exists_symbol_of_listing {listed : List SymbolKey} (h : table.listing key = some listed) :
    ∃ symbol, table.symbols[key.index]? = some symbol ∧ symbol.contents = listed := by
  obtain ⟨symbol, hsymbol, hlisted⟩ := Option.bind_eq_some_iff.mp h
  split at hlisted
  · exact ⟨symbol, hsymbol, Option.some.inj hlisted⟩
  · cases hlisted

/-- If every declaration is listed once, none has two places in a preorder along some of the lists. -/
theorem ListedOnce.nodup_of_sublist (h : table.ListedOnce) {children : SymbolKey → Option (List SymbolKey)}
    (hchildren : ∀ {key listed}, children key = some listed →
      ∃ symbol, table.symbols[key.index]? = some symbol ∧ listed.Sublist symbol.contents)
    {order : List SymbolKey} (horder : Forest children table.topLevel order) : order.Nodup := by
  refine horder.nodup h.topLevel ?_ ?_ ?_
  · intro key hkey owner _ listed hlisted hmem
    obtain ⟨symbol, hsymbol, hsublist⟩ := hchildren hlisted
    exact h.not_mem_topLevel hsymbol (hsublist.subset hmem) hkey
  · intro owner _ rival _ listed others hlisted hothers key hkey hkey'
    obtain ⟨symbol, hsymbol, hsublist⟩ := hchildren hlisted
    obtain ⟨other, hother, hsublist'⟩ := hchildren hothers
    exact h.owner_unique hsymbol hother (hsublist.subset hkey) (hsublist'.subset hkey')
  · intro owner _ listed hlisted
    obtain ⟨symbol, hsymbol, hsublist⟩ := hchildren hlisted
    exact hsublist.nodup (h.contents hsymbol)

theorem ListedOnce.nodup (h : table.ListedOnce) {order : List SymbolKey}
    (horder : Forest table.listing table.topLevel order) : order.Nodup := by
  refine h.nodup_of_sublist (fun {key listed} hlisted => ?_) horder
  obtain ⟨symbol, hsymbol, rfl⟩ := exists_symbol_of_listing hlisted
  exact ⟨symbol, hsymbol, List.Sublist.refl _⟩

end SymbolTable

/-! ## The collector -/

/-- Reading a wrapper is an operation on its handle. -/
theorem Reaches.read {session : Session σ} {s : SessionState σ} {kind : Kind} {h : Handle kind}
    {w : kind.Wrapper} (hw : (s.caches.get kind).get h.index = some w) (r : Reading kind α) :
    Reaches session s ((r.query w).after session s) := by
  have hreaches : Reaches session s ((Operation.read h r).query.after session s) :=
    .operate (.read h r) .stay
  rw [Action.after, Operation.read_of_get hw session] at hreaches
  exact hreaches

namespace Query

/-- The collector does no more to the session than the annotations of the declaration do. -/
theorem annotatedCollector_declaration_after (name : String) (d : Declaration)
    (session : Session σ) (x : List Declaration × SessionState σ) :
    (((annotatedCollector name).declaration d).after session x).2 =
      d.annotations.after session x.2 := by
  let Same (y : List Declaration × SessionState σ) := y.2 = d.annotations.after session x.2
  refine Action.after_bind (P := Same) ?_ ?_
  · exact congrArg Prod.snd (Visit.ofQuery_after x)
  · intro annotations y hok
    change _ = d.annotations.after session x.2
    rw [Action.after_of_ok (Visit.ofQuery_eq_ok hok)]
    split <;> rfl

theorem annotatedCollector_orderly (name : String) (session : Session σ) :
    (annotatedCollector name).Orderly session := by
  intro node x
  let Later (y : List Declaration × SessionState σ) := Reaches session x.2 y.2
  refine NodeId.after_accept (P := Later) .stay fun w hresolve => ?_
  have hw := (Query.resolve_eq_ok hresolve).1
  have hdeclaration (d : Declaration) (h : Reaches session x.2 (d.annotations.after session x.2)) :
      Later (((annotatedCollector name).declaration d).after session x) := by
    change Reaches session x.2 _
    rwa [annotatedCollector_declaration_after]
  obtain ⟨kind, index⟩ := node
  cases kind
  case classLike => exact hdeclaration (.classLike w) (.read hw (.field .classAnnotations))
  case function => exact hdeclaration (.function w) (.read hw (.field .functionAnnotations))
  case property => exact hdeclaration (.property w) (.read hw (.field .propertyAnnotations))
  case typeParameter =>
    exact hdeclaration (.typeParameter w) (.read hw (.field .typeParameterAnnotations))
  all_goals exact .stay

end Query

/-! ## What the collector finds -/

/-- The annotations that belong to a declaration are those that the symbol itself has. -/
theorem Declaration.annotationKeys_eq {d : Declaration} (h : d.Genuine table key) :
    d.annotationKeys table = d.symbol.annotations.filter fun a =>
      table.annotations[a.index]?.any d.symbol.owns := by
  have hsort := h.sort
  unfold annotationKeys SymbolTable.aimed SymbolRecord.owns
  cases hdetails : d.symbol.details <;> rw [hdetails] at hsort <;> cases d <;> cases hsort <;> rfl

/-- Wrapped annotations have the names that the table tells. -/
theorem Fact.any_annotations (hgenuine : caches.Genuine table) {bearer : Option NodeId}
    {keys : List AnnotationKey} {annotations : List AnnotationNode}
    (h : (Fact.annotations bearer keys).Holds caches annotations) (p : AnnotationRecord → Bool) :
    annotations.any (fun a => p a.record) =
      keys.any fun key => table.annotations[key.index]?.any p := by
  induction keys generalizing annotations with
  | nil =>
    cases h
    rfl
  | cons key keys ih =>
    cases h with | cons hfirst hrest =>
    cases hgenuine.made (.node .annotationUse) hfirst with | annotationUse _ id hrecord =>
    rw [List.any_cons, List.any_cons, ih hrest, hrecord]
    rfl

/-- The annotations of a declaration tell whether it bears an annotation. -/
theorem Declaration.any_annotations {d : Declaration} (hgenuine : caches.Genuine table)
    (hd : d.FoundUnder caches key) {annotations : List AnnotationNode}
    (h : (Fact.annotations d.node (d.annotationKeys table)).Holds caches annotations) :
    annotations.any (·.qualifiedName == some name) = table.isAnnotated name key := by
  have hshown := hd.genuine hgenuine
  rw [d.annotationKeys_eq hshown] at h
  have hany := Fact.any_annotations hgenuine h fun record => record.className == some name
  rw [SymbolTable.isAnnotated, hshown.symbol, Option.any_some]
  refine hany.trans ?_
  rw [List.any_filter]
  congr 1
  funext a
  cases table.annotations[a.index]? <;> rfl

theorem annotatedCollector_accept {x y : List Declaration × SessionState ReturnTypes}
    (hx : Tidy world.table x.2) {k : NodeKey} (hk : k.At x.2.caches node)
    (h : node.accept (Query.annotatedCollector name) world.session x = .ok () y) :
    y.1.map Declaration.key =
      x.1.map Declaration.key ++ k.declaration?.toList.filter (world.table.isAnnotated name) := by
  obtain ⟨w, hlookup, rfl⟩ := hk
  obtain ⟨w', hresolve, hvisit⟩ := NodeId.accept_eq_ok h
  cases (hx.genuine.issued_of_lookup hlookup).symm.trans (Query.resolve_eq_ok hresolve).1
  have hdeclaration {key : SymbolKey} {d : Declaration} (hd : d.FoundUnder x.2.caches key)
      (hok : (Query.annotatedCollector name).declaration d world.session x = .ok () y) :
      y.1.map Declaration.key =
        x.1.map Declaration.key ++ [key].filter (world.table.isAnnotated name) := by
    obtain ⟨annotations, s, hannotations, hok⟩ := Visit.bind_ofQuery_eq_ok hok
    obtain ⟨htidy, hgrows, hfact⟩ := (Declaration.annotations_yields hd).of_ok hx hannotations
    rw [Declaration.any_annotations htidy.genuine (hd.grows hgrows) hfact.2] at hok
    cases hannotated : world.table.isAnnotated name key <;> rw [hannotated] at hok <;> cases hok
    · simp [hannotated]
    · simp [hannotated, (hd.genuine hx.genuine).key_eq]
  -- The collector leaves everything alone that is no declaration.
  obtain ⟨kind, nodeKey⟩ := k
  cases kind
  case classLike => exact hdeclaration (d := .classLike w) hlookup hvisit
  case function => exact hdeclaration (d := .function w) hlookup hvisit
  case property => exact hdeclaration (d := .property w) hlookup hvisit
  case typeParameter => exact hdeclaration (d := .typeParameter w) hlookup hvisit
  all_goals
    cases hvisit
    exact (List.append_nil _).symm

/-! ## The search -/

/-- The declarations that a node brings into the preorder: itself, or those of a file. -/
def NodeKey.listed (table : SymbolTable) : NodeKey → List SymbolKey
  | ⟨.file, key⟩ => (table.files[key.index]?.map FileRecord.declarations).getD []
  | k => k.declaration?.toList

/-- A child is no file. -/
theorem NodeKey.Below.listed {contents accessories : List SymbolKey} {k : NodeKey}
    (h : k.Below node contents accessories) : k.listed table = k.declaration?.toList := by
  obtain ⟨kind, nodeKey⟩ := k
  cases kind
  case file =>
    cases h with
    | part _ hholder | accessory _ _ hholder => cases hholder
    | declaration _ hdeclaration => cases hdeclaration
  all_goals rfl

/-- The children of a node bring what the node lists. -/
theorem Offspring.flatMap_listed {kind : NodeKind} {w : kind.Wrapper} {keys : List NodeKey}
    (h : Offspring world.table kind w keys) {s t : SessionState ReturnTypes}
    {children : List NodeId} (hok : kind.children w world.session s = .ok children t) :
    keys.flatMap (NodeKey.listed world.table) = kind.contents w := by
  rw [← h.filterMap_declaration?_of_children hok, List.filterMap_eq_flatMap_toList]
  exact List.flatMap_congr fun k hk => (h.below hk).listed

/-- What a node that was wrapped brings is itself with what it lists, or just what it lists. -/
theorem Made.listed {k : NodeKey} {w : k.kind.Wrapper} (h : Made table (.node k.kind) k.key w) :
    (∃ key, k.listed table = [key] ∧ k.declaration? = some key ∧
      table.listing key = some (k.kind.contents w)) ∨
    k.declaration? = none ∧ k.listed table = k.kind.contents w := by
  obtain ⟨kind, nodeKey⟩ := k
  cases h with
  | classLike id hsymbol hdetails | function id hsymbol hdetails | property id hsymbol hdetails
  | typeParameter id hsymbol hdetails =>
    refine .inl ⟨nodeKey, rfl, rfl, ?_⟩
    simp only [SymbolTable.listing, hsymbol, Option.bind_some, SymbolRecord.contents, hdetails]
    rfl
  | file id hfile => exact .inr ⟨rfl, by simp [NodeKey.listed, hfile, NodeKind.contents]⟩
  | _ => exact .inr ⟨rfl, rfl⟩

/-- The collector notes a declaration down if it bears the annotation. The children bring what the node
lists. -/
theorem annotatedCollector_enter {x y : List Declaration × SessionState ReturnTypes}
    {children : List NodeId} (hx : Tidy world.table x.2) {k : NodeKey} (hk : k.At x.2.caches node)
    (h : (Query.annotatedCollector name).enter node world.session x = .ok children y) :
    y.1.map Declaration.key =
        x.1.map Declaration.key ++ k.declaration?.toList.filter (world.table.isAnnotated name) ∧
      ∃ (w : k.kind.Wrapper) (keys : List NodeKey), Made world.table (.node k.kind) k.key w ∧
        View.keyed.list.Shows y.2.caches children keys ∧
        keys.flatMap (NodeKey.listed world.table) = k.kind.contents w := by
  obtain ⟨_, z, haccept, hchildren⟩ := Action.bind_eq_ok h
  have hz : Reaches world.session x.2 z.2 := by
    rw [← Action.after_of_ok haccept]
    exact Query.annotatedCollector_orderly name world.session node x
  have hdata : y.1 = z.1 := by rw [Visit.eq_of_ofQuery hchildren]
  refine ⟨hdata ▸ annotatedCollector_accept hx hk haccept, ?_⟩
  have hchildren := Visit.ofQuery_eq_ok hchildren
  obtain ⟨htidy, hgrows, w, hw, keys, hkeys, hshown⟩ :=
    node.children_yields.of_ok (hz.tidy hx) hchildren
  obtain ⟨w', hlookup, rfl⟩ := hk.grows (hz.grows.caches.trans hgrows)
  cases hw.symm.trans (htidy.genuine.issued_of_lookup hlookup)
  obtain ⟨w, _, hresolve, hchildren⟩ := Action.bind_eq_ok hchildren
  have hissued : z.2.caches.Issued _ w := (Query.resolve_eq_ok hresolve).1
  cases (hissued.grows hgrows).symm.trans hw
  exact ⟨w', keys, htidy.genuine.made _ hlookup, hshown, hkeys.flatMap_listed hchildren⟩

/-- What the collector finds from some nodes on is what bears the annotation among the declarations
under them. -/
theorem annotatedCollector_traverses {x y : List Declaration × SessionState ReturnTypes}
    (h : (Query.annotatedCollector name).Traverses world.session nodes x (.ok () y))
    (hx : Tidy world.table x.2) {keys : List NodeKey}
    (hnodes : View.keyed.list.Shows x.2.caches nodes keys) :
    ∃ order, Forest world.table.listing (keys.flatMap (NodeKey.listed world.table)) order ∧
      y.1.map Declaration.key =
        x.1.map Declaration.key ++ order.filter (world.table.isAnnotated name) := by
  generalize hresult : (.ok () y : Visit.Outcome ReturnTypes (List Declaration)) = result at h
  induction h generalizing y keys with
  | done x =>
    cases hresult
    cases hnodes
    exact ⟨[], .nil, (List.append_nil _).symm⟩
  | stopped | stoppedBelow => cases hresult
  | @next node rest children x z u _ henter hbelow _ ihbelow ihrest =>
    cases hnodes with | @cons _ k _ keys hnode hnodes =>
    have horderly := Query.annotatedCollector_orderly name world.session
    have hz := Visitor.enter_reaches horderly node x
    rw [Action.after_of_ok henter] at hz
    have hu := hz.trans (hbelow.reaches horderly)
    obtain ⟨hfirst, w, keysBelow, hmade, hchildren, hlisted⟩ :=
      annotatedCollector_enter hx hnode henter
    obtain ⟨below, hforestBelow, hfound⟩ := ihbelow (hz.tidy hx) hchildren rfl
    obtain ⟨after, hforestAfter, hfoundAfter⟩ :=
      ihrest (hu.tidy hx) (View.grows _ hnodes hu.grows.caches) hresult
    rw [hlisted] at hforestBelow
    rw [hfoundAfter, hfound, hfirst, List.flatMap_cons]
    -- A declaration stands before what it lists, and any other node leaves its place to that.
    rcases hmade.listed with ⟨key, hself, hdeclaration, hlisting⟩ | ⟨hdeclaration, hself⟩
    · refine ⟨key :: (below ++ after), hself ▸ .cons hlisting hforestBelow hforestAfter, ?_⟩
      have horder : key :: (below ++ after) = [key] ++ (below ++ after) := rfl
      rw [hdeclaration, Option.toList_some, horder, List.filter_append, List.filter_append,
        List.append_assoc, List.append_assoc]
    · refine ⟨below ++ after, hself ▸ hforestBelow.append hforestAfter, ?_⟩
      rw [hdeclaration, Option.toList_none, List.filter_nil, List.append_nil, List.filter_append,
        List.append_assoc]

/-- Walking the files in turn is one traversal. -/
theorem walkFiles_traverses {v : Visitor σ δ Unit} {session : Session σ} {steps : Nat}
    {files : List FileNode} {x y : δ × SessionState σ}
    (h : Query.walkFiles v steps files session x = .ok true y) :
    v.Traverses session (files.map fun file => file.id.node) x (.ok () y) := by
  induction files generalizing x with
  | nil =>
    cases h
    exact .done _
  | cons file files ih =>
    obtain ⟨left, z, hwalk, hrest⟩ := Action.bind_eq_ok h
    cases left with
    | nil => exact (Visitor.Traverses.of_walk_ok hwalk).append (ih hrest)
    | cons => cases hrest

/-- The files in scope are those of the table, in order. -/
theorem Query.newFiles_yields : Yields world caches Query.newFiles
    ((View.found (.node .file)).list.of
      ((List.range world.table.files.size).map FileKey.mk)) := by
  refine .bind (.glance .newFiles) fun {keys later} _ _ hkeys => ?_
  have hfiles : Yields world later (keys.mapM Query.file)
      ((View.found (.node .file)).list.of (keys.map id)) := .mapM Query.file_yields keys
  rw [List.map_id] at hfiles
  cases hkeys
  exact hfiles

/-- All files together bring the top-level declarations. -/
theorem SymbolTable.flatMap_listed_files (table : SymbolTable) :
    (((List.range table.files.size).map FileKey.mk).map (NodeKey.mk .file)).flatMap
      (NodeKey.listed table) = table.topLevel := by
  rw [topLevel, List.map_map, List.flatMap_map, List.flatMap_def, List.flatMap_def]
  congr 1
  refine List.ext_getElem (by simp) fun i hi hfile => ?_
  have hi : i < table.files.size := by simpa using hi
  simp [NodeKey.listed, hi]

/-- The search finds every declaration that bears the annotation, and nothing else, in the preorder of
the table. -/
theorem annotatedDeclarations_preorder (honce : world.table.ListedOnce) {types : ReturnTypes}
    {s t : SessionState ReturnTypes} (hs : Reaches world.session (.start types) s) {steps : Nat}
    {found : List Declaration}
    (h : Query.annotatedDeclarations steps name world.session s = .ok (some found) t) :
    ∃ order, Forest world.table.listing world.table.topLevel order ∧ order.Nodup ∧
      found.map Declaration.key = order.filter (world.table.isAnnotated name) := by
  obtain ⟨files, s', hfiles, h⟩ := Action.bind_eq_ok h
  obtain ⟨htidy, _, hshown⟩ :=
    Query.newFiles_yields.of_ok (hs.tidy (.start world.table types)) hfiles
  obtain ⟨⟨outcome, collected⟩, t', hrun, h⟩ := Action.bind_eq_ok h
  rw [Visit.run] at hrun
  cases hwalk : Query.walkFiles (Query.annotatedCollector name) steps files world.session ([], s') with
  | error e y =>
    rw [hwalk] at hrun
    cases hrun
    cases h
  | ok finished y =>
    rw [hwalk] at hrun
    cases hrun
    cases finished with
    | false => cases h
    | true =>
      cases h
      obtain ⟨order, horder, hfound⟩ :=
        annotatedCollector_traverses (walkFiles_traverses hwalk) htidy (View.found_nodes hshown)
      rw [world.table.flatMap_listed_files] at horder
      exact ⟨order, horder, honce.nodup horder, hfound⟩

/-- A table that knows a file with a class. The class has a type parameter, a property and a function. All
bear a mark, but that of the property is aimed at its getter. -/
def SymbolTable.markedClass : SymbolTable where
  files := #[{ path := "a.kt", package := "", declarations := [⟨0⟩] }]
  symbols := #[
    { name := some "A", details := .classLike { typeParameters := [⟨1⟩], members := [⟨2⟩, ⟨3⟩] },
      annotations := [⟨0⟩] },
    { name := some "T", details := .typeParameter {}, container := some ⟨0⟩, annotations := [⟨0⟩] },
    { name := some "p", details := .property { type := ⟨0⟩ }, container := some ⟨0⟩,
      annotations := [⟨1⟩] },
    { name := some "f", details := .function {}, container := some ⟨0⟩, annotations := [⟨0⟩] }]
  types := #[{ shape := .dynamic, rendered := "dynamic" }]
  annotations := #[{ className := some "Mark" }, { className := some "Mark", target := some .getter }]
  returnTypes := { known := ({} : Std.TreeMap SymbolKey TypeKey).insert ⟨3⟩ ⟨0⟩ }

/-- The class comes before its type parameter, and the property is passed over. -/
theorem annotatedDeclarations_preorder_markedClass :
    let world : World := { table := .markedClass }
    ∃ found t, Query.annotatedDeclarations 20 "Mark" world.session (.start world.table.returnTypes) =
        .ok (some found) t ∧
      found.map Declaration.key = [⟨0⟩, ⟨1⟩, ⟨3⟩] := by
  intro world
  have honce : world.table.ListedOnce := by decide +kernel
  have hfound : ((Query.annotatedDeclarations 20 "Mark").answer? world.session
      (.start world.table.returnTypes)).join.isSome := by decide +kernel
  obtain ⟨found, hfound⟩ := Option.isSome_iff_exists.mp hfound
  obtain ⟨t, hok⟩ := Action.exists_ok_of_answer? (Option.join_eq_some_iff.mp hfound)
  obtain ⟨order, horder, _, hkeys⟩ := annotatedDeclarations_preorder honce .stay hok
  have hlisted : Forest world.table.listing world.table.topLevel ([⟨0⟩, ⟨1⟩, ⟨2⟩, ⟨3⟩] : List SymbolKey) :=
    .cons rfl (.cons rfl .nil (.cons rfl .nil (.cons rfl .nil .nil))) .nil
  cases horder.unique hlisted
  refine ⟨found, t, hok, hkeys.trans ?_⟩
  decide +kernel

end SymbolGraph
