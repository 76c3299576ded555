import SymbolGraph.Proofs.Meaning.Wrapping

/-!
# What the arguments of an annotation mean

The wrapper of an argument is made from data that are at hand when it is wrapped, and not
from its key. Those data are the ones in the portrait of the argument.
-/

namespace SymbolGraph

variable {world : World} {caches : Caches}

namespace AnnotationNode

variable {e : Entity (.node .annotationUse)} {w : AnnotationNode}

/-- The arguments from a position on are the one at the position and those after it. -/
theorem written_of_drop {position : Nat} {argument : ArgumentRecord} {arguments : List ArgumentRecord}
    (h : w.record.arguments.drop position = argument :: arguments) :
    w.record.arguments[position]? = some argument ∧
      w.record.arguments.drop (position + 1) = arguments := by
  have hfirst := congrArg (·[0]?) h
  have htail := congrArg List.tail h
  exact ⟨by simpa using hfirst, by simpa using htail⟩

theorem writtenArguments_answers (hw : e.find caches = some w) {position : Nat}
    {arguments : List ArgumentRecord} (harguments : w.record.arguments.drop position = arguments) :
    Answers world caches Field.arguments.view (w.writtenArguments position arguments)
      (world.writtenArguments e position arguments) := by
  induction arguments generalizing caches position with
  | nil => exact .pure .nil
  | cons argument arguments ih =>
    obtain ⟨hargument, hrest⟩ := written_of_drop harguments
    refine .of_faithful fun hgrows hfaithful => ?_
    have hw := Entity.find_grows hw hgrows
    -- The portrait looks the argument up by its position, the query has come to it in the list.
    have hportrait : (Entity.valueArgument e (.written position)).portrait world = .ok {
        id := ⟨0⟩, owner := ⟨0⟩, name := argument.name, value := argument.value, origin := .source
        position := w.record.position } := by
      rw [Entity.portrait, (hfaithful.fits hw).portrait, Meaning.ok_bind]
      simp only [Kind.blank, hargument]
      rfl
    refine .bind (Query.valueArgument_answers (Entity.at_of_find hw) hportrait) ?_
    intro first _ later hgrows _ hfirst
    refine .bind (ih (Entity.find_grows hw hgrows) hrest) ?_
    intro rest _ _ hgrows _ hrest
    exact .pure (.cons (View.grows _ hfirst hgrows) hrest)

theorem soleConstructor_answers (w : AnnotationNode) :
    Answers world caches .plain w.soleConstructor (world.soleConstructor w) := by
  unfold soleConstructor World.soleConstructor
  cases w.record.className with
  | none => exact .pure rfl
  | some className =>
    refine .bind_ok (.glance (.classByName className)) ?_
    rintro found later _ _ rfl
    dsimp only
    cases world.glance (.classByName className) with
    | none => exact .pure rfl
    | some key =>
      refine .bind (.inquire (.symbol key)) ?_
      rintro symbol _ later _ _ rfl
      cases symbol.details
      case classLike details =>
        dsimp only
        rcases details.constructors with _ | ⟨constructor, _ | ⟨_, _⟩⟩
        · exact .pure rfl
        · refine (Answers.inquire (.symbol constructor)).map ?_
          rintro symbol _ _ rfl
          rfl
        · exact .pure rfl
      all_goals exact .throw rfl

theorem parametersOf_answers (w : AnnotationNode) (constructor : SymbolRecord) :
    Answers world caches (View.plain.list) (w.parametersOf constructor)
      (world.parametersOf w constructor) := by
  unfold parametersOf World.parametersOf
  cases constructor.details
  case function details =>
    refine .mapM (fun key => ?_) _
    refine (Answers.inquire (.symbol key)).map ?_
    rintro parameter _ _ rfl
    rfl
  all_goals exact .throw rfl

theorem defaultValue_answers (parameter : SymbolRecord) :
    Answers world caches .plain (defaultValue parameter) (world.defaultValue parameter) := by
  unfold defaultValue World.defaultValue
  cases parameter.source with
  | none => exact .pure rfl
  | some source =>
    dsimp only
    cases source.form with
    | native =>
      cases source.defaultValue with
      | none => exact .pure rfl
      | some expression => exact .glance (.evaluateConstant expression)
    | interop => exact .throw rfl
    | other => exact .throw rfl

/-- The parameters come with the records of their symbols. -/
theorem parametersOf_genuine {constructor : SymbolRecord}
    {parameters : List (SymbolKey × SymbolRecord)}
    (h : world.parametersOf w constructor = .ok parameters) :
    ∀ p ∈ parameters, world.inquire (.symbol p.1) = .ok p.2 := by
  unfold World.parametersOf at h
  cases hdetails : constructor.details <;> rw [hdetails] at h <;> try cases h
  intro p hp
  obtain ⟨key, hkey⟩ := Meaning.of_mem_mapM h hp
  obtain ⟨symbol, hsymbol, hkey⟩ := Meaning.bind_eq_ok hkey
  cases hkey
  exact hsymbol

theorem defaultsFor_answers (hw : e.find caches = some w) (covered : List String)
    {parameters : List (SymbolKey × SymbolRecord)}
    (hparameters : ∀ p ∈ parameters, world.inquire (.symbol p.1) = .ok p.2) :
    Answers world caches Field.arguments.view (w.defaultsFor covered parameters)
      (world.defaultsFor e covered parameters) := by
  induction parameters generalizing caches with
  | nil => exact .pure .nil
  | cons p parameters ih =>
    obtain ⟨key, parameter⟩ := p
    have hparameter := hparameters _ List.mem_cons_self
    have ih {caches : Caches} (hw : e.find caches = some w) :=
      ih hw fun p hp => hparameters p (List.mem_cons_of_mem _ hp)
    unfold defaultsFor World.defaultsFor
    cases hname : parameter.name with
    | none => exact ih hw
    | some name =>
      dsimp only
      split
      · exact ih hw
      · refine (defaultValue_answers parameter).bind_of ?_
        rintro value _ later hvalue hgrows _ rfl
        have hw := Entity.find_grows hw hgrows
        cases value with
        | none => exact ih hw
        | some value =>
          -- An argument by default is made only for a parameter with a name and a value.
          have hportrait : (Entity.valueArgument e (.default key)).portrait world = .ok {
              id := ⟨0⟩, owner := ⟨0⟩, name := some name, value := .constant value
              origin := .synthetic, position := none } := by
            simp only [Entity.portrait, hparameter, hname, hvalue, Meaning.ok_bind]
            rfl
          refine .bind (Query.valueArgument_answers (Entity.at_of_find hw) hportrait) ?_
          intro first _ later hgrows _ hfirst
          refine .bind (ih (Entity.find_grows hw hgrows)) ?_
          intro rest _ _ hgrows _ hrest
          exact .pure (.cons (View.grows _ hfirst hgrows) hrest)

theorem arguments_answers (hw : e.find caches = some w) :
    Answers world caches Field.arguments.view w.arguments (world.arguments e w) := by
  refine .field .annotationArguments hw ?_
  refine .bind (writtenArguments_answers hw rfl) ?_
  intro written _ later hgrows _ hwritten
  have hw := Entity.find_grows hw hgrows
  refine .bind (soleConstructor_answers w) ?_
  rintro constructor _ later' hgrows' _ rfl
  have hw := Entity.find_grows hw hgrows'
  have hwritten := View.grows _ hwritten hgrows'
  cases constructor with
  | none => exact .pure hwritten
  | some constructor =>
    refine (parametersOf_answers w constructor).bind_of ?_
    intro parameters parameters' later hgenuine hgrows _ hsame
    have hsame : parameters = parameters' := by
      simpa [View.list, View.plain] using hsame
    subst hsame
    have hw := Entity.find_grows hw hgrows
    have hwritten := View.grows _ hwritten hgrows
    refine .bind (defaultsFor_answers hw _ (parametersOf_genuine hgenuine)) ?_
    intro defaults _ later' hgrows _ hdefaults
    exact .pure (View.list_append (View.grows _ hwritten hgrows) hdefaults)

theorem annotationType_answers (hw : e.find caches = some w) :
    Answers world caches Field.annotationType.view w.annotationType (world.annotationType e w) := by
  refine .field .annotationType hw ?_
  change Answers world caches _ _ (world.annotationType e w)
  unfold World.annotationType
  cases w.record.className with
  | none => exact .pure .none
  | some className =>
    refine .bind_ok (.glance (.classByName className)) ?_
    rintro found later hgrows _ rfl
    dsimp only
    cases world.glance (.classByName className) with
    | none => exact .pure .none
    | some key =>
      refine .bind (.inquire (.classType key)) ?_
      rintro type _ later' hgrows' _ rfl
      have hnode := View.wrapper_node (Entity.find_grows hw (hgrows.trans hgrows'))
      refine (Query.primaryReference_answers (.some hnode) type).map ?_
      intro r _ _ hr
      exact .some hr

end AnnotationNode

end SymbolGraph
