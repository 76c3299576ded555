import Mathlib.Data.List.Dedup
import SymbolGraph.Graph.Nested
import SymbolGraph.Processing.Processor
import SymbolGraph.Proofs.Processing.Annotated

/-!
# Going through nested declarations

Going through declarations and what is declared in them enters everything that is reachable along the
lists of classes and of native block bodies, each thing before what is in it. What is known of the data of
the visit is put together from what is known of one step.
-/

namespace SymbolGraph

variable {δ : Type} {world : World} {table : SymbolTable} {caches : Caches} {key owner : SymbolKey}

/-! ## Declarations in declarations -/

/-- The constructors and members of a class, or what is declared in the body of a function. -/
def SymbolRecord.declarationKeys (symbol : SymbolRecord) : List SymbolKey :=
  match symbol.details with
  | .classLike c => c.constructors ++ c.members
  | .function _ => (symbol.source.map Source.localDeclarations).getD []
  | _ => []

theorem SymbolRecord.declarationKeys_sublist (symbol : SymbolRecord) :
    symbol.declarationKeys.Sublist symbol.contents := by
  unfold declarationKeys contents
  cases symbol.details with
  | classLike c | function f => exact List.sublist_append_right _ _
  | _ => exact List.nil_sublist _

namespace SymbolTable

/-- What is declared right in a declaration. -/
def nestedKeys (table : SymbolTable) (key : SymbolKey) : Option (List SymbolKey) :=
  table.symbols[key.index]?.bind fun symbol =>
    if symbol.details.sort.isDeclaration then some symbol.declarationKeys else none

def Declares (table : SymbolTable) (owner key : SymbolKey) : Prop :=
  ∃ symbol, table.symbols[owner.index]? = some symbol ∧ key ∈ symbol.declarationKeys

/-- A symbol is one of the roots, or is declared somewhere in one of them. -/
def Reachable (table : SymbolTable) (roots : List SymbolKey) (key : SymbolKey) : Prop :=
  ∃ root ∈ roots, Relation.ReflTransGen table.Declares root key

theorem mem_nestedKeys :
    (∃ listed, table.nestedKeys owner = some listed ∧ key ∈ listed) ↔ table.Declares owner key := by
  simp only [nestedKeys, Declares, Option.bind_eq_some_iff]
  constructor
  · rintro ⟨listed, ⟨symbol, hsymbol, hlisted⟩, hkey⟩
    split at hlisted
    · cases hlisted
      exact ⟨symbol, hsymbol, hkey⟩
    · cases hlisted
  · rintro ⟨symbol, hsymbol, hkey⟩
    have hsort : symbol.details.sort.isDeclaration = true := by
      cases hdetails : symbol.details <;> simp only [SymbolRecord.declarationKeys, hdetails] at hkey <;>
        first | rfl | cases hkey
    exact ⟨_, ⟨symbol, hsymbol, if_pos hsort⟩, hkey⟩

theorem mem_of_forest {roots order : List SymbolKey} (h : Forest table.nestedKeys roots order) :
    key ∈ order ↔ table.Reachable roots key := by
  rw [h.mem_iff, Reachable]
  simp only [mem_nestedKeys]

/-- Preorders differ only in where a symbol stands, and how often. -/
theorem perm_dedup_of_forest {roots listed order : List SymbolKey}
    (h : Forest table.nestedKeys roots listed) (hnodup : order.Nodup)
    (horder : ∀ key, key ∈ order ↔ table.Reachable roots key) : order.Perm listed.dedup := by
  refine (List.perm_ext_iff_of_nodup hnodup (List.nodup_dedup listed)).mpr fun key => ?_
  rw [horder, List.mem_dedup, mem_of_forest h]

theorem nodup_of_forest (h : table.ListedOnce) {order : List SymbolKey}
    (horder : Forest table.nestedKeys table.topLevel order) : order.Nodup := by
  refine h.nodup_of_sublist (fun {key listed} hlisted => ?_) horder
  obtain ⟨symbol, hsymbol, hlisted⟩ := Option.bind_eq_some_iff.mp hlisted
  split at hlisted
  · cases hlisted
    exact ⟨symbol, hsymbol, symbol.declarationKeys_sublist⟩
  · cases hlisted

end SymbolTable

/-- A declaration declares what its symbol declares. -/
theorem Declaration.FoundUnder.nestedKeys {d : Declaration} (h : d.FoundUnder caches key)
    (hgenuine : caches.Genuine table) : table.nestedKeys key = some d.declarationKeys := by
  cases d with
  | classLike w =>
    cases hgenuine.made (.node .classLike) h with | classLike id hsymbol hdetails =>
    simp only [SymbolTable.nestedKeys, hsymbol, Option.bind_some, SymbolRecord.declarationKeys, hdetails]
    rfl
  | function w =>
    cases hgenuine.made (.node .function) h with | function id hsymbol hdetails =>
    simp only [SymbolTable.nestedKeys, hsymbol, Option.bind_some, SymbolRecord.declarationKeys, hdetails]
    rfl
  | property w =>
    cases hgenuine.made (.node .property) h with | property id hsymbol hdetails =>
    simp only [SymbolTable.nestedKeys, hsymbol, Option.bind_some, SymbolRecord.declarationKeys, hdetails]
    rfl
  | typeParameter w =>
    cases hgenuine.made (.node .typeParameter) h with | typeParameter id hsymbol hdetails =>
    simp only [SymbolTable.nestedKeys, hsymbol, Option.bind_some, SymbolRecord.declarationKeys, hdetails]
    rfl

/-! ## Entering everything that is declared -/

namespace Visit

variable {α β : Type} {enter : Declaration → Visit ReturnTypes δ Unit}
  {I : Caches → δ → List SymbolKey → Prop} {keys rest : List SymbolKey}

/-- If the visit succeeds, it has entered everything under these keys, each thing before what is in it. -/
def Enters (world : World) (I : Caches → δ → List SymbolKey → Prop)
    (visit : Visit ReturnTypes δ α) (keys : List SymbolKey) : Prop :=
  ∀ a x y visited, Tidy world.table x.2 → I x.2.caches x.1 visited →
    visit world.session x = .ok a y →
    ∃ order, Forest world.table.nestedKeys keys order ∧ Tidy world.table y.2 ∧
      I y.2.caches y.1 (visited ++ order)

/-- What is known of the data is kept while the session goes on, and is known again with one declaration
more when that was entered. -/
structure Tracks (world : World) (enter : Declaration → Visit ReturnTypes δ Unit)
    (I : Caches → δ → List SymbolKey → Prop) : Prop where
  grows : ∀ {caches later data visited}, I caches data visited → caches.Grows later →
    I later data visited
  step : ∀ {x y : δ × SessionState ReturnTypes} {visited key d}, Tidy world.table x.2 →
    d.FoundUnder x.2.caches key → I x.2.caches x.1 visited → enter d world.session x = .ok () y →
    Tidy world.table y.2 ∧ I y.2.caches y.1 (visited ++ [key])

namespace Enters

theorem done (a : α) : Enters world I (pure a) [] := by
  intro _ x y visited hx hI hok
  cases hok
  exact ⟨[], .nil, hx, by rwa [List.append_nil]⟩

theorem andThen {first : Visit ReturnTypes δ α} {next : Visit ReturnTypes δ β}
    (h : Enters world I first keys) (hrest : Enters world I next rest) :
    Enters world I (first >>= fun _ => next) (keys ++ rest) := by
  intro b x y visited hx hI hok
  obtain ⟨a, z, hfirst, hok⟩ := Action.bind_eq_ok hok
  obtain ⟨below, hbelow, hz, hI⟩ := h a x z visited hx hI hfirst
  obtain ⟨after, hafter, hy, hI⟩ := hrest b z y _ hz hI hok
  exact ⟨below ++ after, hbelow.append hafter, hy, by rwa [← List.append_assoc]⟩

theorem forM {f : α → Visit ReturnTypes δ Unit} {g : α → List SymbolKey}
    (h : ∀ a, Enters world I (f a) (g a)) (as : List α) :
    Enters world I (as.forM f) (as.flatMap g) := by
  induction as with
  | nil => exact done ()
  | cons a as ih =>
    rw [List.flatMap_cons]
    exact (h a).andThen ih

/-- What is entered may depend on the answer to a query. -/
theorem query {q : Query ReturnTypes α} {F : Fact α} {f : α → Visit ReturnTypes δ β}
    (hI : ∀ {caches later data visited}, I caches data visited → caches.Grows later →
      I later data visited)
    (hq : ∀ {caches}, Yields world caches q F)
    (hf : ∀ {a caches}, caches.Genuine world.table → F.Holds caches a → Enters world I (f a) keys) :
    Enters world I (ofQuery q >>= f) keys := by
  intro b x y visited hx hdata hok
  obtain ⟨a, s, hquery, hok⟩ := bind_ofQuery_eq_ok hok
  obtain ⟨hs, hgrows, hfact⟩ := hq.of_ok hx hquery
  exact hf hs.genuine hfact b (x.1, s) y visited hs (hI hdata hgrows) hok

end Enters

namespace Tracks

/-- A declaration is entered, and then what is declared in it. -/
theorem of_below (h : Tracks world enter I) {below : Declaration → Visit ReturnTypes δ Unit}
    (hbelow : ∀ d, Enters world I (below d) d.declarationKeys) (key : SymbolKey) :
    Enters world I (do
      let d ← ofQuery (Query.declaration key)
      enter d
      below d) [key] := by
  intro _ x y visited hx hI hok
  obtain ⟨d, s, hdeclaration, hok⟩ := bind_ofQuery_eq_ok hok
  obtain ⟨_, z, henter, hok⟩ := Action.bind_eq_ok hok
  obtain ⟨hs, hgrows, hd⟩ := (Query.declaration_yields key).of_ok hx hdeclaration
  obtain ⟨hz, hI⟩ := h.step (x := (x.1, s)) hs hd (h.grows hI hgrows) henter
  obtain ⟨order, horder, hy, hI⟩ := hbelow d () z y _ hz hI hok
  refine ⟨key :: (order ++ []), .cons (hd.nestedKeys hs.genuine) horder .nil, hy, ?_⟩
  simpa using hI

theorem nestedWithin (h : Tracks world enter I) (depth : Nat) (key : SymbolKey) :
    Enters world I (nestedWithin enter depth key) [key] := by
  induction depth generalizing key with
  | zero =>
    unfold Visit.nestedWithin
    refine h.of_below (fun d => ?_) key
    -- With no depth left, a visit succeeds only if nothing is declared here.
    cases d.declarationKeys with
    | nil => exact .done ()
    | cons => exact fun _ x y visited hx hI hok => by cases hok
  | succ depth ih =>
    unfold Visit.nestedWithin
    refine h.of_below (fun d => ?_) key
    cases d.declarationKeys with
    | nil => exact .done ()
    | cons first keys =>
      have hforM := Enters.forM ih (first :: keys)
      rwa [List.flatMap_singleton'] at hforM

theorem nested (h : Tracks world enter I) (keys : List SymbolKey) :
    Enters world I (nested enter keys) keys := by
  have hforest := Enters.forM (h.nestedWithin world.table.symbols.size) keys
  rwa [List.flatMap_singleton'] at hforest

end Tracks

end Visit

/-- The wrappers of all files hold what the files of the table declare. -/
theorem Query.flatMap_newFiles (hgenuine : caches.Genuine table) {keys : List FileKey}
    {files : List FileNode} (h : (View.found (.node .file)).list.Shows caches files keys) :
    files.flatMap (·.file.declarations) =
      (keys.map (NodeKey.mk .file)).flatMap (NodeKey.listed table) := by
  induction h with
  | nil => rfl
  | cons hfile _ ih =>
    cases hgenuine.made (.node .file) hfile with | file id hrecord =>
    simp only [List.map_cons, List.flatMap_cons, NodeKey.listed, hrecord, ih]
    rfl

/-- Going through the declarations of all files enters everything under the top-level declarations. -/
theorem Visit.Tracks.newFiles {enter : Declaration → Visit ReturnTypes δ Unit}
    {I : Caches → δ → List SymbolKey → Prop} (h : Tracks world enter I) {α : Type}
    {next : Visit ReturnTypes δ α} {rest : List SymbolKey} (hrest : Enters world I next rest) :
    Enters world I (do
      let files ← ofQuery Query.newFiles
      files.forM fun file => Visit.nested enter file.file.declarations
      next) (world.table.topLevel ++ rest) := by
  refine .query h.grows Query.newFiles_yields fun {files caches} hgenuine hfiles => ?_
  -- The wrappers list what the files of the table list.
  have hkeys := Query.flatMap_newFiles hgenuine hfiles
  rw [world.table.flatMap_listed_files] at hkeys
  rw [← hkeys]
  exact (Enters.forM (fun file => h.nested file.file.declarations) files).andThen hrest

/-! ## The bound on the nesting -/

/-- Symbols of the table that lead down to this one. None of them occurs twice, and there is no more room
in the table than the depth that is left. -/
structure SymbolTable.Descent (table : SymbolTable) (depth : Nat) (key : SymbolKey)
    (above : List SymbolKey) : Prop where
  known : ∀ owner ∈ above, owner.index < table.symbols.size
  nodup : above.Nodup
  leads : ∀ owner ∈ above, Relation.TransGen table.Declares owner key
  room : table.symbols.size ≤ above.length + depth

namespace SymbolTable.Descent

variable {depth : Nat} {above : List SymbolKey}

theorem start (hdepth : table.symbols.size ≤ depth) : table.Descent depth key [] where
  known _ h := nomatch h
  nodup := .nil
  leads _ h := nomatch h
  room := by rwa [List.length_nil, Nat.zero_add]

variable (hacyclic : ∀ key, ¬ Relation.TransGen table.Declares key key)
include hacyclic

theorem cons_nodup (h : table.Descent depth key above) : (key :: above).Nodup :=
  List.nodup_cons.mpr ⟨fun hmem => hacyclic key (h.leads key hmem), h.nodup⟩

/-- A symbol of the table leaves some depth for what it declares. -/
theorem depth_pos (h : table.Descent depth key above) (hkey : key.index < table.symbols.size) :
    0 < depth := by
  have hle := SymbolKey.length_le_of_nodup (h.cons_nodup hacyclic)
    (List.forall_mem_cons.mpr ⟨hkey, h.known⟩)
  have hroom := h.room
  rw [List.length_cons] at hle
  omega

theorem next (h : table.Descent (depth + 1) owner above) (howner : owner.index < table.symbols.size)
    (hkey : table.Declares owner key) : table.Descent depth key (owner :: above) where
  known := List.forall_mem_cons.mpr ⟨howner, h.known⟩
  nodup := h.cons_nodup hacyclic
  leads := List.forall_mem_cons.mpr ⟨.single hkey, fun o ho => (h.leads o ho).tail hkey⟩
  room := by
    have hroom := h.room
    rw [List.length_cons]
    omega

end SymbolTable.Descent

namespace Visit

variable {α : Type} {enter : Declaration → Visit ReturnTypes δ Unit}
  {I : Caches → δ → List SymbolKey → Prop} {keys visited : List SymbolKey}
  {x : δ × SessionState ReturnTypes}

/-- Visits that do the same to each thing do the same to all of them. -/
theorem Enters.forM_congr {f g : SymbolKey → Visit ReturnTypes δ Unit}
    (hf : ∀ key ∈ keys, Enters world I (f key) [key])
    (hfg : ∀ key ∈ keys, ∀ x visited, Tidy world.table x.2 → I x.2.caches x.1 visited →
      f key world.session x = g key world.session x)
    (hx : Tidy world.table x.2) (hI : I x.2.caches x.1 visited) :
    keys.forM f world.session x = keys.forM g world.session x := by
  induction keys generalizing x visited with
  | nil => rfl
  | cons key keys ih =>
    have hfirst := hfg key List.mem_cons_self x visited hx hI
    change (f key >>= fun _ => keys.forM f) world.session x =
      (g key >>= fun _ => keys.forM g) world.session x
    rw [Action.bind_apply, Action.bind_apply, ← hfirst]
    cases hrun : f key world.session x with
    | error e y => rfl
    | ok a y =>
      obtain ⟨_, _, hy, hI⟩ := hf key List.mem_cons_self a x y visited hx hI hrun
      exact ih (fun key hkey => hf key (List.mem_cons_of_mem _ hkey))
        (fun key hkey => hfg key (List.mem_cons_of_mem _ hkey)) hy hI

variable (hacyclic : ∀ key, ¬ Relation.TransGen world.table.Declares key key)
include hacyclic

theorem Tracks.nestedWithin_succ (h : Tracks world enter I) {depth : Nat} {above : List SymbolKey}
    (hdescent : world.table.Descent depth key above) (hx : Tidy world.table x.2)
    (hI : I x.2.caches x.1 visited) :
    Visit.nestedWithin enter (depth + 1) key world.session x =
      Visit.nestedWithin enter depth key world.session x := by
  induction depth generalizing key above x visited with
  | zero =>
    unfold Visit.nestedWithin
    refine bind_ofQuery_congr fun d s hdeclaration => ?_
    obtain ⟨hs, _, hd⟩ := (Query.declaration_yields key).of_ok hx hdeclaration
    have hknown := (Array.getElem?_eq_some_iff.mp (hd.genuine hs.genuine).symbol).1
    -- The way down to here has used up all symbols of the table, and this is one more.
    exact absurd (hdescent.depth_pos hacyclic hknown) (Nat.lt_irrefl 0)
  | succ depth ih =>
    unfold Visit.nestedWithin
    refine bind_ofQuery_congr fun d s hdeclaration => ?_
    obtain ⟨hs, hgrows, hd⟩ := (Query.declaration_yields key).of_ok hx hdeclaration
    have hknown := (Array.getElem?_eq_some_iff.mp (hd.genuine hs.genuine).symbol).1
    refine Action.bind_congr fun _ z henter => ?_
    obtain ⟨hz, hI⟩ := h.step (x := (x.1, s)) hs hd (h.grows hI hgrows) henter
    have hbelow : ∀ next ∈ d.declarationKeys, ∀ y visited, Tidy world.table y.2 →
        I y.2.caches y.1 visited → Visit.nestedWithin enter (depth + 1) next world.session y =
          Visit.nestedWithin enter depth next world.session y := by
      intro next hnext y visited hy hI
      have hdeclares : world.table.Declares key next :=
        SymbolTable.mem_nestedKeys.mp ⟨_, hd.nestedKeys hs.genuine, hnext⟩
      exact ih (hdescent.next hacyclic hknown hdeclares) hy hI
    cases hkeys : d.declarationKeys with
    | nil => rfl
    | cons first rest =>
      rw [hkeys] at hbelow
      exact Enters.forM_congr (fun next _ => h.nestedWithin (depth + 1) next) hbelow hz hI

/-- Unless something contains itself, no depth beyond the size of the table makes a difference. -/
theorem Tracks.nestedWithin_of_le (h : Tracks world enter I) {depth : Nat}
    (hdepth : world.table.symbols.size ≤ depth) (hx : Tidy world.table x.2)
    (hI : I x.2.caches x.1 visited) : Visit.nestedWithin enter depth key world.session x =
      Visit.nestedWithin enter world.table.symbols.size key world.session x := by
  induction depth, hdepth using Nat.le_induction with
  | base => rfl
  | succ depth hdepth ih => rw [h.nestedWithin_succ hacyclic (.start hdepth) hx hI, ih]

end Visit

/-! ## Rounds -/

variable {σ π : Type} {p : Processor σ π} {session : Session σ} {before after : π}
  {s t : SessionState σ}

theorem Processor.run_of_ok {deferred : List Declaration}
    (h : p.process session (before, s) = .ok deferred (after, t)) :
    p.run session (before, s) = .ok deferred (p.finish after, t) := by
  rw [run, h]

theorem Processor.run_of_error {e : GraphError}
    (h : p.process session (before, s) = .error e (after, t)) :
    p.run session (before, s) = .error e (p.onError after, t) := by
  rw [run, h]

theorem Processor.run_eq_ok {deferred : List Declaration}
    (h : p.run session (before, s) = .ok deferred (after, t)) :
    ∃ data, p.process session (before, s) = .ok deferred (data, t) ∧ after = p.finish data := by
  unfold run at h
  split at h
  · rename_i data _ hprocess
    cases h
    exact ⟨data, hprocess, rfl⟩
  · cases h

end SymbolGraph
