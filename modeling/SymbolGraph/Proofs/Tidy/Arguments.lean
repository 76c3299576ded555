import Mathlib.Data.List.ReduceOption
import SymbolGraph.Proofs.Tidy.Run
import SymbolGraph.Proofs.Tidy.Success

/-!
# Complete arguments

If the parameters of an annotation class are known, and what is not written has a constant default,
then the written arguments and the defaults together cover every parameter once.
-/

namespace SymbolGraph

variable {world : World} {table : SymbolTable} {types : ReturnTypes} {s t : SessionState ReturnTypes}
  {a : AnnotationNode} {constructor : SymbolRecord} {parameters : List (SymbolKey × SymbolRecord)}
  {names : List String} {given : List (Option String)}

/-! ## Which parameters arguments cover -/

/-- The parameters that arguments cover, in the order of the arguments. One with a name covers the
parameter of that name, and any other the parameter at its position. -/
def coverage (names : List String) (given : List (Option String)) : List (Option String) :=
  given.mapIdx fun position name => name.or names[position]?

theorem coverage_append_named (names : List String) (given : List (Option String))
    (rest : List String) :
    coverage names (given ++ rest.map some) = coverage names given ++ rest.map some := by
  rw [coverage, List.mapIdx_append]
  congr 1
  apply List.ext_getElem <;> simp

/-- Arguments that cover what there is, in any order, are as many as there are parameters, and cover each
parameter at one position. -/
theorem covers_once (h : (coverage names given).Perm (names.map some)) (hdistinct : names.Nodup) :
    given.length = names.length ∧
      ∀ name ∈ names, ∃! position : Nat, (coverage names given)[position]? = some (some name) := by
  refine ⟨?_, fun name hname => ?_⟩
  · have hlength := h.length_eq
    rwa [coverage, List.length_mapIdx, List.length_map] at hlength
  · have hmem : some name ∈ coverage names given := h.mem_iff.mpr (List.mem_map_of_mem hname)
    obtain ⟨position, hposition⟩ := List.mem_iff_getElem?.mp hmem
    refine ⟨position, hposition, fun other hother => ?_⟩
    have hnodup := h.nodup_iff.mpr (hdistinct.map (Option.some_injective _))
    have hbound := (List.getElem?_eq_some_iff.mp hother).1
    exact (List.getElem?_inj hbound hnodup).mp (hother.trans hposition.symm)

/-- Every argument is for a parameter, and no two are for the same one. -/
structure ValidArguments (names : List String) (given : List (Option String)) : Prop where
  named : ∀ {name}, some name ∈ given → name ∈ names
  positional : ∀ {position : Nat}, given[position]? = some none → position < names.length
  apart : (coverage names given).Nodup

namespace ValidArguments

theorem mem_names (h : ValidArguments names given) {name : Option String}
    (hname : name ∈ coverage names given) : name ∈ names.map some := by
  obtain ⟨position, hposition, rfl⟩ := List.mem_mapIdx.mp hname
  cases hgiven : given[position] with
  | some name => exact List.mem_map_of_mem (h.named (hgiven ▸ List.getElem_mem hposition))
  | none =>
    have hbound : position < names.length :=
      h.positional ((List.getElem?_eq_getElem hposition).trans (congrArg some hgiven))
    rw [Option.none_or, List.getElem?_eq_getElem hbound]
    exact List.mem_map_of_mem (List.getElem_mem hbound)

/-- What is covered and what is not are all the parameters. -/
theorem perm (h : ValidArguments names given) (hdistinct : names.Nodup) :
    (coverage names given ++ (names.map some).filter (· ∉ coverage names given)).Perm
      (names.map some) := by
  have hnames : (names.map some).Nodup := hdistinct.map (Option.some_injective _)
  have hcovered : (coverage names given).Perm
      ((names.map some).filter (· ∈ coverage names given)) := by
    refine (List.perm_ext_iff_of_nodup h.apart (hnames.filter _)).mpr fun name => ?_
    rw [List.mem_filter, decide_eq_true_eq]
    exact ⟨fun hname => ⟨h.mem_names hname, hname⟩, And.right⟩
  simp only [decide_not]
  exact (hcovered.append_right _).trans (List.filter_append_perm _ _)

/-- With an argument by name for each parameter that is not covered, every parameter is covered once. -/
theorem complete (h : ValidArguments names given) (hdistinct : names.Nodup) :
    (coverage names (given ++ (names.map some).filter (· ∉ coverage names given))).Perm
      (names.map some) := by
  rw [List.filter_map, coverage_append_named, ← List.filter_map]
  exact h.perm hdistinct

end ValidArguments

/-- A parameter that has a constant by default was not written in other syntax. -/
theorem SymbolTable.isForeign_of_defaultConstant {parameter : SymbolRecord}
    (h : (table.defaultConstant parameter).isSome = true) : parameter.isForeign = false := by
  unfold defaultConstant at h
  unfold SymbolRecord.isForeign
  cases hsource : parameter.source with
  | none => rfl
  | some source => cases hform : source.form <;> simp_all

namespace AnnotationNode

theorem coveredNames_eq (hnames : parameters.map (·.2.name) = names.map some) (position : Nat)
    (arguments : List ArgumentRecord) :
    coveredNames parameters position arguments =
      ((arguments.map (·.name)).mapIdx fun index name =>
        name.or names[position + index]?).reduceOption := by
  induction arguments generalizing position with
  | nil => rfl
  | cons argument arguments ih =>
    -- All parameters have names, so being in reach and having a name are the same.
    have hparameter : parameters[position]?.bind (·.2.name) = names[position]? := by
      have hentry := congrArg (·[position]?) hnames
      simp only [List.getElem?_map] at hentry
      cases hparameter : parameters[position]? <;> cases hname : names[position]? <;>
        simp_all
    rw [coveredNames, ih, hparameter, List.map_cons, List.mapIdx_cons]
    cases hname : argument.name.or names[position]? <;>
      simp [List.reduceOption, Nat.add_assoc, Nat.add_comm 1]

theorem mem_coveredNames (hnames : parameters.map (·.2.name) = names.map some)
    {arguments : List ArgumentRecord} {name : String} :
    name ∈ coveredNames parameters 0 arguments ↔
      some name ∈ coverage names (arguments.map (·.name)) := by
  rw [coveredNames_eq hnames, List.reduceOption_mem_iff]
  simp only [Nat.zero_add, coverage]

/-! ## Success -/

theorem writtenArguments_succeeds (a : AnnotationNode) (position : Nat)
    (arguments : List ArgumentRecord) :
    (a.writtenArguments position arguments).Succeeds world.session s := by
  induction arguments generalizing position s with
  | nil => exact .pure _
  | cons argument arguments ih =>
    exact .bind (Query.wrap_succeeds (.pure _)) fun _ => (ih _).map _

theorem soleConstructor_eq_ok (h : world.table.soleConstructor a.record = some constructor) :
    a.soleConstructor world.session s = .ok (some constructor) s := by
  unfold SymbolTable.soleConstructor at h
  obtain ⟨className, hclassName, h⟩ := Option.bind_eq_some_iff.mp h
  obtain ⟨key, hkey, h⟩ := Option.bind_eq_some_iff.mp h
  obtain ⟨owner, howner, h⟩ := Option.bind_eq_some_iff.mp h
  have hask : Query.ask (·.classByName className) world.session s = .ok (some key) s := by
    rw [Query.ask_apply, ← hkey]
    rfl
  unfold soleConstructor
  rw [hclassName]
  refine (Action.bind_of_ok hask _).trans ?_
  refine (Action.bind_of_ok (SymbolTable.request_symbol howner) _).trans ?_
  split at h
  · rename_i details hdetails
    rw [hdetails]
    split at h
    · rename_i hconstructors
      simp only [hconstructors]
      exact Action.bind_of_ok (SymbolTable.request_symbol h) _
    · cases h
  · cases h

theorem parametersOf_eq_ok (h : world.table.parametersOf constructor = some parameters) :
    a.parametersOf constructor world.session s = .ok parameters s := by
  obtain ⟨details, hdetails, hkeys, htold⟩ := SymbolTable.parametersOf_eq_some h
  unfold parametersOf
  rw [hdetails]
  simp only [← hkeys]
  clear h hkeys
  induction parameters with
  | nil => rfl
  | cons p parameters ih =>
    obtain ⟨hp, htold⟩ := List.forall_mem_cons.mp htold
    rw [List.map_cons, List.mapM_cons, bind_assoc]
    refine (Action.bind_of_ok (SymbolTable.request_symbol hp) _).trans ?_
    exact Action.bind_of_ok (ih htold) _

/-- A default is looked up if the syntax is native. -/
theorem defaultValue_eq_ok {parameter : SymbolRecord} (h : parameter.isForeign = false) :
    defaultValue parameter world.session s = .ok (world.table.defaultConstant parameter) s := by
  unfold SymbolRecord.isForeign at h
  unfold defaultValue SymbolTable.defaultConstant
  cases hsource : parameter.source with
  | none => rfl
  | some source =>
    rw [hsource, Option.any_some, decide_eq_false_iff_not, not_not] at h
    simp only [Option.bind_eq_bind, Option.bind_some, h]
    cases source.defaultValue with
    | none => rfl
    | some expression => rfl

theorem defaultsFor_succeeds {covered : List String}
    (hread : ∀ p ∈ parameters, ∀ name ∈ p.2.name, name ∉ covered → p.2.isForeign = false) :
    (a.defaultsFor covered parameters).Succeeds world.session s := by
  induction parameters generalizing s with
  | nil => exact .pure _
  | cons p parameters ih =>
    obtain ⟨key, parameter⟩ := p
    obtain ⟨hparameter, hread⟩ := List.forall_mem_cons.mp hread
    unfold defaultsFor
    split
    · exact ih hread
    · rename_i name hname
      split
      · exact ih hread
      · rename_i huncovered
        refine .bind_ok (defaultValue_eq_ok (hparameter name hname huncovered)) ?_
        cases world.table.defaultConstant parameter with
        | none => exact ih hread
        | some constant => exact .bind (Query.wrap_succeeds (.pure _)) fun _ => (ih hread).map _

theorem arguments_succeeds (hparameters : world.table.annotationParameters a.record = some parameters)
    (hread : ∀ p ∈ parameters, ∀ name ∈ p.2.name,
      name ∉ coveredNames parameters 0 a.record.arguments → p.2.isForeign = false) :
    a.arguments.Succeeds world.session s := by
  obtain ⟨constructor, hconstructor, hparameters⟩ := Option.bind_eq_some_iff.mp hparameters
  refine Query.memoize_succeeds (.bind (writtenArguments_succeeds a 0 _) fun _ => ?_)
  refine .bind_ok (soleConstructor_eq_ok hconstructor) (.bind_ok (parametersOf_eq_ok hparameters) ?_)
  exact (defaultsFor_succeeds hread).map _

/-! ## What the arguments say -/

/-- The argument says what its annotation has it say. -/
def Accepts (table : SymbolTable) (a : AnnotationNode) (w : ArgumentNode) (source : ArgumentSource) : Prop :=
  a.Argues table source w.name w.value w.origin w.position

/-- The arguments are those written, and then the defaults of what is left to them. -/
theorem arguments_accepted (hs : Tidy world.table s) (ha : s.caches.Issued a.id a)
    {arguments : List ArgumentNode} (hrun : a.arguments world.session s = .ok arguments t) :
    List.Forall₂ (a.Accepts world.table) arguments
      (a.writtenSources ++ ((world.table.defaulted a.record).map Prod.fst).map .default) := by
  obtain ⟨ht, hgrows, hfact⟩ := (arguments_yields ha).of_ok hs hrun
  refine (List.forall₂_map_right_iff.mp hfact.2).imp fun w source hw => ?_
  obtain ⟨b, hb, hargues⟩ := ht.genuine.backed (.node .valueArgument) hw
  cases Option.some.inj ((ha.grows hgrows).symm.trans hb)
  exact hargues

end AnnotationNode

/-- The argument says what is written. -/
def ArgumentRecord.WrittenAs (argument : ArgumentRecord) (w : ArgumentNode) : Prop :=
  w.name = argument.name ∧ w.value = argument.value ∧ w.origin = .source

/-- The argument is for the parameter, and says what the parameter has by default. -/
def SymbolTable.DefaultOf (table : SymbolTable) (parameter : SymbolRecord) (w : ArgumentNode) : Prop :=
  w.name = parameter.name ∧
    (∃ constant, table.defaultConstant parameter = some constant ∧ w.value = .constant constant) ∧
    w.origin = .synthetic

theorem ArgumentRecord.WrittenAs.map_name {records : List ArgumentRecord} {arguments : List ArgumentNode}
    (h : List.Forall₂ WrittenAs records arguments) :
    arguments.map (·.name) = records.map (·.name) := by
  rw [← List.forall₂_eq_eq_eq, List.forall₂_map_left_iff, List.forall₂_map_right_iff]
  exact h.flip.imp fun _ _ hwritten => hwritten.1

theorem SymbolTable.DefaultOf.map_name {arguments : List ArgumentNode}
    (h : List.Forall₂ (fun p => table.DefaultOf p.2) parameters arguments) :
    arguments.map (·.name) = parameters.map (·.2.name) := by
  rw [← List.forall₂_eq_eq_eq, List.forall₂_map_left_iff, List.forall₂_map_right_iff]
  exact h.flip.imp fun _ _ hdefault => hdefault.1

namespace AnnotationNode

theorem writtenAs_of_accepts {arguments : List ArgumentNode}
    (h : List.Forall₂ (a.Accepts table) arguments a.writtenSources) :
    List.Forall₂ ArgumentRecord.WrittenAs a.record.arguments arguments := by
  obtain ⟨hlength, haccepts⟩ := List.forall₂_iff_get.mp h
  have hsources : a.writtenSources.length = a.record.arguments.length := by
    simp [writtenSources]
  refine List.forall₂_iff_get.mpr ⟨hsources.symm.trans hlength.symm, fun i hi hargument => ?_⟩
  have hargues := haccepts i hargument (hsources.symm ▸ hi)
  have hsource : a.writtenSources.get ⟨i, hsources.symm ▸ hi⟩ = .written i := by
    simp [writtenSources]
  rw [hsource] at hargues
  generalize arguments.get ⟨i, hargument⟩ = w at hargues
  obtain ⟨_, _, name, value, origin, position⟩ := w
  cases hargues with | written hwritten =>
  cases Option.some.inj ((List.getElem?_eq_getElem hi).symm.trans hwritten)
  exact ⟨rfl, rfl, rfl⟩

theorem defaultOf_of_accepts (hknown : ∀ p ∈ parameters, table.symbols[p.1.index]? = some p.2)
    {arguments : List ArgumentNode}
    (h : List.Forall₂ (a.Accepts table) arguments ((parameters.map Prod.fst).map .default)) :
    List.Forall₂ (fun p => table.DefaultOf p.2) parameters arguments := by
  induction parameters generalizing arguments with
  | nil =>
    cases h
    exact .nil
  | cons p parameters ih =>
    obtain ⟨hp, hknown⟩ := List.forall_mem_cons.mp hknown
    rcases h with _ | ⟨hargues, hrest⟩
    rename_i w _
    refine .cons ?_ (ih hknown hrest)
    obtain ⟨_, _, name, value, origin, position⟩ := w
    cases hargues with | default hparameter hname hconstant =>
    cases Option.some.inj (hp.symm.trans hparameter)
    exact ⟨hname.symm, ⟨_, hconstant, rfl⟩, rfl⟩

end AnnotationNode

section

variable (hparameters : world.table.annotationParameters a.record = some parameters)
  (hnames : parameters.map (·.2.name) = names.map some)
  (hdefaults : ∀ p ∈ parameters, p.2.name ∉ coverage names (a.record.arguments.map (·.name)) →
    (world.table.defaultConstant p.2).isSome = true)
include hparameters hnames hdefaults

/-- All that is not covered is left to its defaults. -/
theorem SymbolTable.defaulted_eq :
    world.table.defaulted a.record =
      parameters.filter (·.2.name ∉ coverage names (a.record.arguments.map (·.name))) := by
  rw [defaulted, hparameters]
  refine List.filter_congr fun p hp => ?_
  have hname : p.2.name ∈ names.map some := by
    rw [← hnames]
    exact List.mem_map_of_mem hp
  obtain ⟨name, -, hname⟩ := List.mem_map.mp hname
  have hcovered : name ∈ AnnotationNode.coveredNames parameters 0 a.record.arguments ↔
      some name ∈ coverage names (a.record.arguments.map (·.name)) :=
    AnnotationNode.mem_coveredNames hnames
  have hdefault := hdefaults p hp
  rw [← hname] at hdefault
  by_cases hmem : some name ∈ coverage names (a.record.arguments.map (·.name))
  · simp [← hname, hmem, hcovered]
  · simp [← hname, hmem, hcovered, hdefault hmem]

/-- The arguments are those written, and then one for each parameter that these do not cover. -/
theorem AnnotationNode.arguments_parts (hs : Tidy world.table s) (ha : s.caches.Issued a.id a)
    {arguments : List ArgumentNode} (hrun : a.arguments world.session s = .ok arguments t) :
    ∃ written defaults, arguments = written ++ defaults ∧
      List.Forall₂ ArgumentRecord.WrittenAs a.record.arguments written ∧
      List.Forall₂ (fun p => world.table.DefaultOf p.2)
        (parameters.filter (·.2.name ∉ coverage names (a.record.arguments.map (·.name)))) defaults := by
  have haccepts := arguments_accepted hs ha hrun
  rw [SymbolTable.defaulted_eq hparameters hnames hdefaults] at haccepts
  obtain ⟨_, _, hparametersOf⟩ := Option.bind_eq_some_iff.mp hparameters
  obtain ⟨_, _, _, hknown⟩ := SymbolTable.parametersOf_eq_some hparametersOf
  refine ⟨_, _, (List.take_append_drop a.writtenSources.length arguments).symm, ?_, ?_⟩
  · exact writtenAs_of_accepts (List.forall₂_take_append _ _ _ haccepts)
  · exact defaultOf_of_accepts (fun p hp => hknown p (List.mem_filter.mp hp).1)
      (List.forall₂_drop_append _ _ _ haccepts)

/-- If the written arguments are valid, and what they do not cover has constant defaults, then an
annotation has one argument for each parameter: first those that are written, as they are written, and
then the defaults of the other parameters, in the order of the parameters. -/
theorem arguments_complete (hs : Reaches world.session (.start types) s) (ha : s.caches.Issued a.id a)
    (hdistinct : names.Nodup) (hvalid : ValidArguments names (a.record.arguments.map (·.name))) :
    ∃ written defaults t, a.arguments world.session s = .ok (written ++ defaults) t ∧
      (written ++ defaults).length = parameters.length ∧
      List.Forall₂ ArgumentRecord.WrittenAs a.record.arguments written ∧
      List.Forall₂ (fun p => world.table.DefaultOf p.2)
        (parameters.filter (·.2.name ∉ coverage names (a.record.arguments.map (·.name)))) defaults ∧
      ∀ name ∈ names, ∃! position : Nat,
        (coverage names ((written ++ defaults).map (·.name)))[position]? = some (some name) := by
  have htidy : Tidy world.table s := hs.tidy (.start _ _)
  have hsucceeds : a.arguments.Succeeds world.session s := by
    refine AnnotationNode.arguments_succeeds hparameters fun p hp name hname huncovered => ?_
    rw [AnnotationNode.mem_coveredNames hnames] at huncovered
    exact SymbolTable.isForeign_of_defaultConstant (hdefaults p hp (Option.mem_def.mp hname ▸ huncovered))
  obtain ⟨arguments, t, hrun⟩ := hsucceeds
  obtain ⟨written, defaults, rfl, hwritten, hdefaulted⟩ :=
    AnnotationNode.arguments_parts hparameters hnames hdefaults htidy ha hrun
  -- The defaults bear the names that the written arguments leave uncovered, so all is counted by names.
  have hcoverage : (coverage names ((written ++ defaults).map (·.name))).Perm (names.map some) := by
    have huncovered : defaults.map (·.name) = (names.map some).filter
        (· ∉ coverage names (a.record.arguments.map (·.name))) := by
      rw [SymbolTable.DefaultOf.map_name hdefaulted, ← hnames, List.filter_map]
      rfl
    rw [List.map_append, ArgumentRecord.WrittenAs.map_name hwritten, huncovered]
    exact hvalid.complete hdistinct
  obtain ⟨hlength, honce⟩ := covers_once hcoverage hdistinct
  have hparametersLength : parameters.length = names.length := by
    simpa using congrArg List.length hnames
  rw [List.length_map, ← hparametersLength] at hlength
  exact ⟨written, defaults, t, hrun, hlength, hwritten, hdefaulted, honce⟩

end

/-- A table with an annotation that has its last argument by name, then one by position, and leaves the
first to its default. -/
def SymbolTable.partlyApplied : SymbolTable where
  symbols := #[
    { name := some "Range", details := .classLike { kind := some .annotationClass, constructors := [⟨1⟩] } },
    { name := none, details := .function { isConstructor := true, valueParameters := [⟨2⟩, ⟨3⟩, ⟨4⟩] }
      container := some ⟨0⟩ },
    { name := some "from", details := .valueParameter { type := ⟨0⟩ }, container := some ⟨1⟩
      source := some { position := ⟨⟨0⟩, 0⟩, defaultValue := some ⟨0⟩ } },
    { name := some "to", details := .valueParameter { type := ⟨0⟩ }, container := some ⟨1⟩ },
    { name := some "step", details := .valueParameter { type := ⟨0⟩ }, container := some ⟨1⟩ }]
  types := #[.ofClass "Int"]
  annotations := #[
    { className := some "Range"
      arguments := [⟨some "step", .constant (.int 2)⟩, ⟨none, .constant (.int 9)⟩] }]
  expressions := #[some (.int 0)]
  classesByName := ({} : Std.TreeMap String SymbolKey).insert "Range" ⟨0⟩

theorem arguments_complete_partlyApplied :
    let world : World := { table := .partlyApplied }
    let start : SessionState ReturnTypes := .start world.table.returnTypes
    let s := (Query.annotationUse ⟨0⟩ none : Query ReturnTypes _).after world.session start
    let names := ["from", "to", "step"]
    ∃ (a : AnnotationNode) (arguments : List ArgumentNode) (t : SessionState ReturnTypes),
      a.arguments world.session s = .ok arguments t ∧
        arguments.map (·.name) = [some "step", none, some "from"] ∧
        ∀ name ∈ names, ∃! position : Nat,
          (coverage names (arguments.map (·.name)))[position]? = some (some name) := by
  intro world start s names
  have hs : Reaches world.session start s := .operate (.wrap (.annotationUse ⟨0⟩ none)) .stay
  let a : AnnotationNode := { id := ⟨0⟩, key := ⟨0⟩, record := world.table.annotations[0], parent := none }
  have ha : s.caches.Issued a.id a := rfl
  have hparameters : world.table.annotationParameters a.record = some _ := rfl
  have hvalid : ValidArguments names [some "step", none] := by
    refine ⟨fun hname => ?_, fun {position} _ => ?_, by decide⟩
    · simp_all [names]
    · rcases position with _ | _ | _ <;> simp_all [names]
  obtain ⟨written, defaults, t, hrun, -, hwritten, hdefaulted, honce⟩ :=
    arguments_complete hparameters (show _ = names.map some from rfl) (by decide +kernel) hs ha
      (by decide) hvalid
  refine ⟨a, _, t, hrun, ?_, honce⟩
  rw [List.map_append, ArgumentRecord.WrittenAs.map_name hwritten,
    SymbolTable.DefaultOf.map_name hdefaulted]
  decide +kernel

end SymbolGraph
