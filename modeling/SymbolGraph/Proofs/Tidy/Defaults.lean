import SymbolGraph.Proofs.Oracle.Closed
import SymbolGraph.Proofs.Tidy.Arguments

/-!
# Defaults that cannot be read

The default of a parameter is looked for in native syntax only. If an annotation leaves a named parameter
to its default, and the syntax of the parameter is not native, then the annotation has no arguments at
all. It does not matter whether the parameter declares a default there.
-/

namespace SymbolGraph

variable {world : World} {table : SymbolTable} {types : ReturnTypes} {s t : SessionState ReturnTypes}
  {a : AnnotationNode} {constructor : SymbolRecord} {parameters : List (SymbolKey × SymbolRecord)}
  {covered : List String} {d : Draft}

/-! ## Parameters that are left to their defaults -/

/-- A written argument covers the parameters of this name: it has the name itself or, if it has none, it
stands where a parameter of the name does. -/
def AnnotationRecord.Covers (record : AnnotationRecord) (parameters : List (SymbolKey × SymbolRecord))
    (name : String) : Prop :=
  ∃ (position : Nat) (argument : ArgumentRecord), record.arguments[position]? = some argument ∧
    argument.name.or (parameters[position]?.bind (·.2.name)) = some name

theorem AnnotationNode.mem_coveredNames_iff {position : Nat} {arguments : List ArgumentRecord} {name : String} :
    name ∈ coveredNames parameters position arguments ↔
      ∃ (i : Nat) (argument : ArgumentRecord), arguments[i]? = some argument ∧
        argument.name.or (parameters[position + i]?.bind (·.2.name)) = some name := by
  induction arguments generalizing position with
  | nil => simp [coveredNames]
  | cons argument arguments ih =>
    rw [coveredNames, List.mem_append, Option.mem_toList, ih]
    constructor
    · rintro (hfirst | ⟨i, later, hlater, hname⟩)
      · exact ⟨0, argument, rfl, hfirst⟩
      · exact ⟨i + 1, later, hlater, by rwa [← Nat.add_assoc, Nat.add_right_comm]⟩
    · rintro ⟨_ | i, later, hlater, hname⟩
      · cases hlater
        exact .inl hname
      · exact .inr ⟨i, later, hlater, by rwa [Nat.add_assoc, Nat.add_comm 1]⟩

theorem AnnotationRecord.covers_iff {record : AnnotationRecord} {name : String} :
    record.Covers parameters name ↔ name ∈ AnnotationNode.coveredNames parameters 0 record.arguments := by
  rw [AnnotationNode.mem_coveredNames_iff]
  simp only [Nat.zero_add, Covers]

/-- What goes wrong when the default of a parameter is looked for in its syntax. -/
inductive SymbolRecord.DefaultError (parameter : SymbolRecord) : GraphError → Prop
  | intro {source : Source} : parameter.source = some source → source.form ≠ .native →
    DefaultError parameter (.inconsistency s!"default value of parameter `{parameter.displayName}`"
      "native parameter syntax" source.form.text)

/-- Some named parameter of the annotation class is not covered, and its syntax is not native. -/
def SymbolTable.Strands (table : SymbolTable) (record : AnnotationRecord) : Prop :=
  ∃ parameters, table.annotationParameters record = some parameters ∧
    ∃ p ∈ parameters, (∃ name, p.2.name = some name ∧ ¬ record.Covers parameters name) ∧
      ∃ source, p.2.source = some source ∧ source.form ≠ .native

theorem SymbolRecord.isForeign_iff {parameter : SymbolRecord} :
    parameter.isForeign = true ↔ ∃ source, parameter.source = some source ∧ source.form ≠ .native := by
  simp [isForeign, Option.any_eq_true]

namespace SymbolTable

theorem mem_leftUnread {p : SymbolKey × SymbolRecord} : p ∈ leftUnread covered parameters ↔
    p ∈ parameters ∧ (∃ name, p.2.name = some name ∧ name ∉ covered) ∧ p.2.isForeign = true := by
  simp [leftUnread, Option.any_eq_true]

theorem mem_unread {record : AnnotationRecord} {p : SymbolKey × SymbolRecord} :
    p ∈ table.unread record ↔ ∃ parameters, table.annotationParameters record = some parameters ∧
      p ∈ leftUnread (AnnotationNode.coveredNames parameters 0 record.arguments) parameters := by
  unfold unread
  cases table.annotationParameters record <;> simp

/-- Nothing is left unread unless a parameter is stranded. -/
theorem unread_eq_nil_iff {record : AnnotationRecord} :
    table.unread record = [] ↔ ¬ table.Strands record := by
  rw [List.eq_nil_iff_forall_not_mem, ← not_exists, not_iff_not]
  simp only [mem_unread, mem_leftUnread, SymbolRecord.isForeign_iff, ← AnnotationRecord.covers_iff]
  constructor
  · rintro ⟨p, parameters, hparameters, hp, hleft⟩
    exact ⟨parameters, hparameters, p, hp, hleft⟩
  · rintro ⟨parameters, hparameters, p, hp, hleft⟩
    exact ⟨p, parameters, hparameters, hp, hleft⟩

end SymbolTable

/-! ## Failure -/

namespace AnnotationNode

theorem defaultValue_eq_error {parameter : SymbolRecord} (h : parameter.isForeign = true) :
    ∃ e, parameter.DefaultError e ∧ defaultValue parameter world.session s = .error e s := by
  obtain ⟨source, hsource, hform⟩ := SymbolRecord.isForeign_iff.mp h
  refine ⟨_, .intro hsource hform, ?_⟩
  unfold defaultValue
  rw [hsource]
  cases hcase : source.form with
  | native => exact absurd hcase hform
  | interop | other =>
    simp only [hcase]
    rfl

/-- The first parameter that is left unread makes the defaults fail. -/
theorem defaultsFor_eq_error {p : SymbolKey × SymbolRecord} {rest : List (SymbolKey × SymbolRecord)}
    (h : SymbolTable.leftUnread covered parameters = p :: rest) :
    ∃ e t, p.2.DefaultError e ∧ a.defaultsFor covered parameters world.session s = .error e t := by
  induction parameters generalizing s with
  | nil => cases h
  | cons q parameters ih =>
    obtain ⟨key, parameter⟩ := q
    unfold defaultsFor
    cases hname : parameter.name with
    | none =>
      rw [SymbolTable.leftUnread_cons_of_read (by rw [hname]; rfl)] at h
      exact ih h
    | some name =>
      dsimp only
      split
      · rename_i hcovered
        rw [SymbolTable.leftUnread_cons_of_read (by simp [hname, hcovered])] at h
        exact ih h
      · rename_i huncovered
        cases hforeign : parameter.isForeign with
        | true =>
          rw [SymbolTable.leftUnread, List.filter_cons_of_pos (by simp [hname, huncovered, hforeign])] at h
          cases h
          obtain ⟨e, he, hdefault⟩ : ∃ e, parameter.DefaultError e ∧
              defaultValue parameter world.session s = .error e s := defaultValue_eq_error hforeign
          exact ⟨e, s, he, Action.bind_of_error hdefault _⟩
        | false =>
          rw [SymbolTable.leftUnread_cons_of_read (by simp [hforeign])] at h
          rw [Action.bind_of_ok (defaultValue_eq_ok hforeign)]
          -- A default that is read may be wrapped before the failure, so the rest fails in a later state.
          cases world.table.defaultConstant parameter with
          | none => exact ih h
          | some constant =>
            obtain ⟨w, t, hw⟩ : (Query.valueArgument a.id (.default key) name (.constant constant)
              .synthetic none).Succeeds world.session s := Query.wrap_succeeds (.pure _)
            obtain ⟨e, u, he, hrest⟩ := ih (s := t) h
            exact ⟨e, u, he, (Action.bind_of_ok hw _).trans (Action.bind_of_error hrest _)⟩

/-- What is left unread makes all the arguments fail, if they were not read before. -/
theorem arguments_eq_error (hparameters : world.table.annotationParameters a.record = some parameters)
    {p : SymbolKey × SymbolRecord} {rest : List (SymbolKey × SymbolRecord)}
    (h : world.table.unread a.record = p :: rest) (hcell : s.memo.get? (a.id.cell .arguments) = none) :
    ∃ e t, p.2.DefaultError e ∧ a.arguments world.session s = .error e t := by
  rw [SymbolTable.unread, hparameters] at h
  obtain ⟨constructor, hconstructor, hparameters⟩ := Option.bind_eq_some_iff.mp hparameters
  obtain ⟨written, t, hwritten⟩ : (a.writtenArguments 0 a.record.arguments).Succeeds world.session s :=
    writtenArguments_succeeds a 0 _
  obtain ⟨e, u, he, hdefaults⟩ : ∃ e u, p.2.DefaultError e ∧
      a.defaultsFor (coveredNames parameters 0 a.record.arguments) parameters world.session t = .error e u :=
    defaultsFor_eq_error h
  refine ⟨e, u, he, ?_⟩
  unfold arguments
  rw [Query.memoize_apply, hcell]
  dsimp only
  rw [Action.bind_of_ok hwritten, Action.bind_of_ok (soleConstructor_eq_ok hconstructor)]
  dsimp only
  rw [Action.bind_of_ok (parametersOf_eq_ok hparameters), Action.bind_of_error hdefaults]

end AnnotationNode

/-! ## Finished drafts -/

/-- What the lists of symbols name is in the draft. -/
def Draft.SlotsKnown (d : Draft) : Prop :=
  ∀ symbol ∈ d.symbols, ∀ slot ∈ symbol.slots, slot.1.index < d.symbols.size

instance : Decidable d.SlotsKnown := inferInstanceAs (Decidable (∀ symbol ∈ d.symbols, _))

section

variable (htable : world.table = d.finish) (hslots : d.SlotsKnown)
include htable hslots

theorem Draft.SlotsKnown.exists_symbol {key : SymbolKey} {symbol : SymbolRecord}
    (hsymbol : world.table.symbols[key.index]? = some symbol) {slot : SymbolKey × List NodeKind}
    (hslot : slot ∈ symbol.slots) : ∃ member, world.table.symbols[slot.1.index]? = some member := by
  rw [htable] at hsymbol ⊢
  have hmem : symbol ∈ d.symbols := Array.mem_of_getElem? hsymbol
  exact ⟨_, Array.getElem?_eq_getElem (hslots symbol hmem slot hslot)⟩

/-- A class that is found by its name has a record, and so does each of its constructors. -/
theorem AnnotationNode.soleConstructor_eq_table :
    a.soleConstructor world.session s = .ok (world.table.soleConstructor a.record) s := by
  cases hsole : world.table.soleConstructor a.record with
  | some constructor => exact soleConstructor_eq_ok hsole
  | none =>
    unfold SymbolTable.soleConstructor at hsole
    unfold soleConstructor
    -- The table has nothing also where a record is missing, and the query fails there. A finished draft
    -- has the records of the class and of its constructor.
    cases hclassName : a.record.className with
    | none => rfl
    | some className =>
      have hask : Query.ask (·.classByName className) world.session s =
          .ok world.table.classesByName[className]? s := rfl
      refine (Action.bind_of_ok hask _).trans ?_
      cases hkey : world.table.classesByName[className]? with
      | none => rfl
      | some key =>
        have hname := d.qualifiedClassName_of_classesByName (htable ▸ hkey)
        obtain ⟨owner, details, howner, hdetails⟩ :=
          SymbolTable.exists_classLike (Draft.sort?_of_qualifiedClassName hname)
        rw [← htable] at howner
        refine (Action.bind_of_ok (SymbolTable.request_symbol howner) _).trans ?_
        simp only [hclassName, hkey, howner, hdetails, Option.bind_eq_bind, Option.bind_some] at hsole ⊢
        rcases hconstructors : details.constructors with _ | ⟨constructor, _ | ⟨_, _⟩⟩
        · rfl
        · have hslot : (constructor, [NodeKind.function]) ∈ owner.slots := by
            simp [SymbolRecord.slots, hdetails, hconstructors]
          obtain ⟨member, hmember⟩ := hslots.exists_symbol htable howner hslot
          simp [hconstructors, hmember] at hsole
        · rfl

/-- The parameters of a constructor have records. -/
theorem SymbolTable.exists_parametersOf {key : SymbolKey}
    (hconstructor : world.table.symbols[key.index]? = some constructor)
    (hsort : constructor.details.sort = .function) :
    ∃ parameters, world.table.parametersOf constructor = some parameters := by
  cases hdetails : constructor.details <;> rw [hdetails] at hsort <;> cases hsort
  rename_i f
  have hknown : ∀ key ∈ f.valueParameters, ∃ symbol, world.table.symbols[key.index]? = some symbol := by
    intro key hkey
    have hslot : (key, [NodeKind.valueParameter]) ∈ constructor.slots := by
      simp [SymbolRecord.slots, hdetails, hkey]
    exact hslots.exists_symbol htable hconstructor hslot
  unfold parametersOf
  rw [hdetails]
  dsimp only
  generalize f.valueParameters = keys at hknown
  induction keys with
  | nil => exact ⟨[], rfl⟩
  | cons key keys ih =>
    obtain ⟨⟨symbol, hsymbol⟩, hknown⟩ := List.forall_mem_cons.mp hknown
    obtain ⟨parameters, hparameters⟩ := ih hknown
    exact ⟨(key, symbol) :: parameters, by rw [List.mapM_cons, hsymbol, hparameters]; rfl⟩

omit htable hslots in
theorem SymbolTable.exists_soleConstructor {record : AnnotationRecord}
    (h : table.soleConstructor record = some constructor) :
    ∃ key : SymbolKey, table.symbols[key.index]? = some constructor := by
  unfold soleConstructor at h
  obtain ⟨className, -, h⟩ := Option.bind_eq_some_iff.mp h
  obtain ⟨key, -, h⟩ := Option.bind_eq_some_iff.mp h
  obtain ⟨owner, -, h⟩ := Option.bind_eq_some_iff.mp h
  split at h
  · split at h
    · exact ⟨_, h⟩
    · cases h
  · cases h

/-- An annotation whose class is not found, or has no sole constructor, has the arguments that are written. -/
theorem AnnotationNode.arguments_succeeds_of_no_constructor
    (h : world.table.soleConstructor a.record = none) : a.arguments.Succeeds world.session s := by
  refine Query.memoize_succeeds (.bind (writtenArguments_succeeds a 0 _) fun _ => ?_)
  refine .bind_ok (soleConstructor_eq_table htable hslots) ?_
  rw [h]
  exact .pure _

theorem SymbolTable.exists_annotationParameters {record : AnnotationRecord}
    (h : world.table.soleConstructor record = some constructor)
    (hsort : constructor.details.sort = .function) :
    ∃ parameters, world.table.annotationParameters record = some parameters := by
  obtain ⟨key, hkey⟩ := exists_soleConstructor h
  obtain ⟨parameters, hparameters⟩ := exists_parametersOf htable hslots hkey hsort
  exact ⟨parameters, by rw [annotationParameters, h, Option.bind_some, hparameters]⟩

omit htable hslots in
theorem AnnotationNode.arguments_succeeds_of_read
    (hparameters : world.table.annotationParameters a.record = some parameters)
    (hread : world.table.unread a.record = []) : a.arguments.Succeeds world.session s := by
  refine arguments_succeeds hparameters fun p hp name hname huncovered => ?_
  refine Bool.eq_false_iff.mpr fun hforeign => ?_
  have hleft := SymbolTable.mem_leftUnread.mpr ⟨hp, ⟨name, hname, huncovered⟩, hforeign⟩
  have hmem : p ∈ world.table.unread a.record := SymbolTable.mem_unread.mpr ⟨parameters, hparameters, hleft⟩
  rw [hread] at hmem
  cases hmem

/-- Either nothing is left unread and there are arguments, or a parameter that is left unread is to blame. -/
theorem AnnotationNode.arguments_cases (hs : Tidy world.table s) (ha : s.caches.Issued a.id a)
    (hsole : ∀ constructor, world.table.soleConstructor a.record = some constructor →
      constructor.details.sort = .function) :
    (world.table.unread a.record = [] ∧ a.arguments.Succeeds world.session s) ∨
      ∃ p ∈ world.table.unread a.record, ∃ e t, p.2.DefaultError e ∧
        a.arguments world.session s = .error e t := by
  cases hcell : s.memo.get? (a.id.cell .arguments) with
  | some arguments =>
    -- Arguments that are on record were read once, and that does not happen if something is left unread.
    have hread := (hs.fact_of_get? ha .annotationArguments hcell).1
    exact .inl ⟨hread, arguments, s, Query.memoize_of_get? hcell _⟩
  | none =>
    cases hconstructor : world.table.soleConstructor a.record with
    | none =>
      have hread : world.table.unread a.record = [] := by
        rw [SymbolTable.unread, SymbolTable.annotationParameters, hconstructor]
        rfl
      exact .inl ⟨hread, arguments_succeeds_of_no_constructor htable hslots hconstructor⟩
    | some constructor =>
      obtain ⟨parameters, hparameters⟩ :=
        SymbolTable.exists_annotationParameters htable hslots hconstructor (hsole constructor hconstructor)
      cases hunread : world.table.unread a.record with
      | nil => exact .inl ⟨rfl, arguments_succeeds_of_read hparameters hunread⟩
      | cons p rest => exact .inr ⟨p, List.mem_cons_self, arguments_eq_error hparameters hunread hcell⟩

end

/-- Reading the arguments of an annotation is an internal error if the annotation leaves a named parameter
of its class to its default and the syntax of the parameter is not native, and otherwise it succeeds. What
the parameter declares in that syntax does not matter. -/
theorem arguments_error_iff (htable : world.table = d.finish) (hslots : d.SlotsKnown)
    (hsole : ∀ constructor, world.table.soleConstructor a.record = some constructor →
      constructor.details.sort = .function)
    (hs : Reaches world.session (.start types) s) (ha : s.caches.Issued a.id a) :
    ((∃ e t, a.arguments world.session s = .error e t ∧ e.isInconsistency = true) ↔
        world.table.Strands a.record) ∧
      (¬ world.table.Strands a.record →
        ∃ arguments t, a.arguments world.session s = .ok arguments t) := by
  have hs : Tidy world.table s := hs.tidy (.start _ _)
  obtain ⟨hread, arguments, t, hrun⟩ | ⟨p, hp, e, t, he, hrun⟩ :=
    AnnotationNode.arguments_cases htable hslots hs ha hsole
  · have hread := SymbolTable.unread_eq_nil_iff.mp hread
    refine ⟨⟨?_, fun hstrands => absurd hstrands hread⟩, fun _ => ⟨arguments, t, hrun⟩⟩
    rintro ⟨_, _, hfail, -⟩
    cases hrun.symm.trans hfail
  · have hstrands : world.table.Strands a.record := by
      by_contra hread
      rw [SymbolTable.unread_eq_nil_iff.mpr hread] at hp
      cases hp
    cases he
    exact ⟨⟨fun _ => hstrands, fun _ => ⟨_, t, hrun, rfl⟩⟩, absurd hstrands⟩

/-- A draft with two annotations of a class from the other language, whose only parameter has no default.
One of them gives it. -/
def Draft.interopAnnotations : Draft where
  files := #[{ path := "j/J.kt", package := "j", declarations := [⟨0⟩] }]
  symbols := #[
    { name := some "JAnn"
      details := .classLike { kind := some .annotationClass, constructors := [⟨1⟩] }
      file := some ⟨0⟩, package := "j" },
    { name := none, details := .function { isConstructor := true, valueParameters := [⟨2⟩] }
      kind := .classMember, container := some ⟨0⟩, file := some ⟨0⟩, package := "j" },
    { name := some "value", details := .valueParameter { type := ⟨0⟩ }, container := some ⟨1⟩
      file := some ⟨0⟩, package := "j", source := some { position := ⟨⟨0⟩, 0⟩, form := .interop } }]
  types := #[.ofClass "kotlin.Int"]
  annotations := #[
    { className := some "j.JAnn" },
    { className := some "j.JAnn", arguments := [⟨none, .constant (.int 1)⟩] }]

theorem arguments_error_iff_interopAnnotations :
    let world : World := { table := Draft.interopAnnotations.finish }
    let wrap (i : Nat) (s : SessionState ReturnTypes) :=
      (Query.annotationUse ⟨i⟩ none : Query ReturnTypes _).after world.session s
    let s := wrap 1 (wrap 0 (.start world.table.returnTypes))
    ∃ bare applied : AnnotationNode,
      s.caches.annotations.get 0 = some bare ∧ s.caches.annotations.get 1 = some applied ∧
        (∃ e t, bare.arguments world.session s = .error e t ∧ e.isInconsistency = true) ∧
        ∃ arguments t, applied.arguments world.session s = .ok arguments t := by
  intro world wrap s
  have hs : Reaches world.session (.start world.table.returnTypes) s :=
    .operate (.wrap (.annotationUse ⟨1⟩ none)) (.operate (.wrap (.annotationUse ⟨0⟩ none)) .stay)
  let bare : AnnotationNode :=
    { id := ⟨0⟩, key := ⟨0⟩, record := Draft.interopAnnotations.annotations[0], parent := none }
  let applied : AnnotationNode :=
    { id := ⟨1⟩, key := ⟨1⟩, record := Draft.interopAnnotations.annotations[1], parent := none }
  have hbare : s.caches.Issued bare.id bare := rfl
  have happlied : s.caches.Issued applied.id applied := rfl
  have hslots : Draft.interopAnnotations.SlotsKnown := by decide +kernel
  have hsole (record : AnnotationRecord)
      (h : (world.table.soleConstructor record).all (·.details.sort = .function) = true) :
      ∀ constructor, world.table.soleConstructor record = some constructor →
        constructor.details.sort = .function := by
    intro constructor hconstructor
    simpa [hconstructor] using h
  have hstrands : world.table.Strands bare.record := by
    by_contra hread
    exact absurd (SymbolTable.unread_eq_nil_iff.mpr hread) (by decide +kernel)
  have hread : ¬ world.table.Strands applied.record :=
    SymbolTable.unread_eq_nil_iff.mp (by decide +kernel)
  have hfails := arguments_error_iff rfl hslots (hsole _ (by decide +kernel)) hs hbare
  have hsucceeds := arguments_error_iff rfl hslots (hsole _ (by decide +kernel)) hs happlied
  exact ⟨bare, applied, hbare, happlied, hfails.1.mpr hstrands, hsucceeds.2 hread⟩

/-- No parameter declares a default, and still it is an internal error to leave one out. -/
theorem arguments_fails_interopAnnotations :
    let world : World := { table := Draft.interopAnnotations.finish }
    let s := (Query.annotationUse ⟨0⟩ none : Query ReturnTypes _).after world.session
      (.start world.table.returnTypes)
    Draft.interopAnnotations.SlotsKnown ∧
      (∀ symbol ∈ world.table.symbols, ∀ source ∈ symbol.source, source.defaultValue = none) ∧
      ∃ (bare : AnnotationNode) (t : SessionState ReturnTypes),
        s.caches.annotations.get 0 = some bare ∧
        (world.table.soleConstructor bare.record).any (·.details.sort = .function) = true ∧
        bare.arguments world.session s = .error (.inconsistency "default value of parameter `value`"
          "native parameter syntax" "Interop") t := by
  intro world s
  let bare : AnnotationNode :=
    { id := ⟨0⟩, key := ⟨0⟩, record := Draft.interopAnnotations.annotations[0], parent := none }
  obtain ⟨t, hfail⟩ : ∃ t, bare.arguments world.session s = .error (.inconsistency
      "default value of parameter `value`" "native parameter syntax" "Interop") t :=
    Action.exists_error_of_failure? (by decide +kernel)
  exact ⟨by decide +kernel, by decide +kernel, bare, t, rfl, by decide +kernel, hfail⟩

end SymbolGraph
