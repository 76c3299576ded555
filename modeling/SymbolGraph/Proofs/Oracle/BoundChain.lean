import Mathlib.Data.Fintype.Card
import SymbolGraph.Oracle.Table

/-!
# Chains of bounds

What a type refers to is found along its chain of bounds: from a flexible type to its lower bound and from
a definitely non-null type to its inner type, up to the first type that is told what it refers to or has
no bound. The search of the table counts its steps, and it always has enough of them: a chain that comes
to an end does not meet a type twice.
-/

namespace SymbolGraph

/-- The type that stands for one of this shape, if there is one. -/
def TypeShape.bound? : TypeShape → Option TypeKey
  | flexible lower _ => some lower
  | definitelyNotNull inner => some inner
  | _ => none

/-- The name of the class that a type of this shape is an application of. -/
def TypeShape.className? : TypeShape → Option String
  | classType className _ => some className
  | functional type => some type.className
  | _ => none

namespace SymbolTable

/-- The bound of every type comes before the type. -/
def BoundsBefore (table : SymbolTable) : Prop :=
  ∀ i (_ : i < table.types.size), ∀ bound ∈ table.types[i].shape.bound?, bound.index < i

instance (table : SymbolTable) : Decidable table.BoundsBefore :=
  inferInstanceAs (Decidable (∀ i (_ : i < table.types.size), _))

/-- The chain of a type has its end here after this many steps. -/
inductive BoundChain (table : SymbolTable) (last : TypeKey) : Nat → TypeKey → Prop
  | stop {record : TypeRecord} : table.types[last.index]? = some record →
    table.classifiers[last]? ≠ none ∨ record.shape.bound? = none → BoundChain table last 0 last
  | step {steps : Nat} {type bound : TypeKey} {record : TypeRecord} :
    table.types[type.index]? = some record → table.classifiers[type]? = none →
    record.shape.bound? = some bound → BoundChain table last steps bound →
    BoundChain table last (steps + 1) type

/-- What the type at the end of a chain refers to: what it is told to refer to or, if it is not told, the
class or the type parameter of its shape. -/
inductive RefersTo (table : SymbolTable) (last : TypeKey) : SymbolKey → Prop
  | told {symbol : SymbolKey} : table.classifiers[last]? = some symbol → RefersTo table last symbol
  | classType {record : TypeRecord} {className : String} {arguments : List (TypeArgument TypeKey)}
    {symbol : SymbolKey} : table.classifiers[last]? = none → table.types[last.index]? = some record →
    record.shape = .classType className arguments → table.classesByName[className]? = some symbol →
    RefersTo table last symbol
  | functional {record : TypeRecord} {type : FunctionalType} {symbol : SymbolKey} :
    table.classifiers[last]? = none → table.types[last.index]? = some record →
    record.shape = .functional type → table.classesByName[type.className]? = some symbol →
    RefersTo table last symbol
  | typeParameter {record : TypeRecord} {symbol : SymbolKey} : table.classifiers[last]? = none →
    table.types[last.index]? = some record → record.shape = .typeParameter symbol →
    RefersTo table last symbol

/-- Types of this shape refer to nothing by themselves, and have no bound either. -/
inductive Unclassified (table : SymbolTable) : TypeShape → Prop
  | classType {className : String} (arguments : List (TypeArgument TypeKey)) :
    table.classesByName[className]? = none → Unclassified table (.classType className arguments)
  | functional {type : FunctionalType} :
    table.classesByName[type.className]? = none → Unclassified table (.functional type)
  | classError (name : String) : Unclassified table (.classError name)
  | dynamic : Unclassified table .dynamic
  | error : Unclassified table .error
  | intersection (parts : List TypeKey) : Unclassified table (.intersection parts)

variable {table : SymbolTable} {type last last' : TypeKey} {steps steps' : Nat} {record : TypeRecord}

namespace BoundChain

theorem type_lt (h : table.BoundChain last steps type) : type.index < table.types.size := by
  cases h with
  | stop hrecord | step hrecord => exact (Array.getElem?_eq_some_iff.mp hrecord).1

theorem last_known (h : table.BoundChain last steps type) :
    ∃ record, table.types[last.index]? = some record ∧
      (table.classifiers[last]? ≠ none ∨ record.shape.bound? = none) := by
  induction h with
  | stop hrecord hend => exact ⟨_, hrecord, hend⟩
  | step _ _ _ _ ih => exact ih

/-- A type has only one chain. -/
theorem unique (h : table.BoundChain last steps type) (h' : table.BoundChain last' steps' type) :
    last = last' ∧ steps = steps' := by
  induction h generalizing steps' with
  | stop hrecord hend =>
    cases h' with
    | stop => exact ⟨rfl, rfl⟩
    | step hrecord' htold hbound =>
      cases hrecord.symm.trans hrecord'
      exact absurd hend (by simp [htold, hbound])
  | step hrecord htold hbound _ ih =>
    cases h' with
    | stop hrecord' hend =>
      cases hrecord.symm.trans hrecord'
      exact absurd hend (by simp [htold, hbound])
    | step hrecord' _ hbound' hrest =>
      cases hrecord.symm.trans hrecord'
      cases hbound.symm.trans hbound'
      exact ⟨(ih hrest).1, congrArg (· + 1) (ih hrest).2⟩

/-- If bounds come first, then every chain comes to an end. -/
theorem exists_of_boundsBefore (hbounds : table.BoundsBefore) (htype : type.index < table.types.size) :
    ∃ last steps, table.BoundChain last steps type := by
  obtain ⟨index⟩ := type
  induction index using Nat.strong_induction_on with
  | _ index ih =>
    have hrecord : table.types[(⟨index⟩ : TypeKey).index]? = some table.types[index] :=
      Array.getElem?_eq_getElem htype
    by_cases hend : table.classifiers[(⟨index⟩ : TypeKey)]? ≠ none ∨ table.types[index].shape.bound? = none
    · exact ⟨_, 0, .stop hrecord hend⟩
    · obtain ⟨htold, hbound⟩ := not_or.mp hend
      obtain ⟨bound, hbound⟩ := Option.ne_none_iff_exists'.mp hbound
      have hlt : bound.index < index := hbounds index htype bound hbound
      obtain ⟨last, steps, hrest⟩ := ih bound.index hlt (hlt.trans htype)
      exact ⟨last, steps + 1, .step hrecord (not_not.mp htold) hbound hrest⟩

/-- A chain passes types that are as far from its end as one likes. -/
theorem exists_at (h : table.BoundChain last steps type) {i : Nat} (hi : i ≤ steps) :
    ∃ type, table.BoundChain last i type := by
  induction h with
  | stop hrecord hend =>
    cases Nat.le_zero.mp hi
    exact ⟨_, .stop hrecord hend⟩
  | step hrecord htold hbound hrest ih =>
    obtain rfl | hlt := Nat.eq_or_lt_of_le hi
    · exact ⟨_, .step hrecord htold hbound hrest⟩
    · exact ih (Nat.le_of_lt_succ hlt)

/-- No chain is longer than the table. -/
theorem steps_lt (h : table.BoundChain last steps type) : steps < table.types.size := by
  have hat (i : Fin (steps + 1)) : ∃ type, table.BoundChain last i type :=
    h.exists_at (Nat.le_of_lt_succ i.isLt)
  choose types htypes using hat
  let position (i : Fin (steps + 1)) : Fin table.types.size := ⟨(types i).index, (htypes i).type_lt⟩
  -- A type is only so many steps from the end, so types at different distances are different.
  have hinjective : Function.Injective position := by
    intro i j hij
    have htype : types i = types j := congrArg TypeKey.mk (congrArg Fin.val hij)
    exact Fin.ext ((htypes i).unique (htype ▸ htypes j)).2
  simpa [Nat.succ_le_iff] using Fintype.card_le_of_injective position hinjective

end BoundChain

/-! ## Searching along a chain -/

theorem classifierWithin_of_bound (hrecord : table.types[type.index]? = some record)
    (htold : table.classifiers[type]? = none) {bound : TypeKey} (hbound : record.shape.bound? = some bound)
    (fuel : Nat) : table.classifierWithin (fuel + 1) type = table.classifierWithin fuel bound := by
  rw [classifierWithin, htold, hrecord, Option.none_or, Option.bind_some]
  cases hshape : record.shape <;> rw [hshape] at hbound <;> cases hbound <;> rfl

theorem classifierWithin_of_end (hrecord : table.types[last.index]? = some record)
    (hend : table.classifiers[last]? ≠ none ∨ record.shape.bound? = none) (fuel : Nat) :
    table.classifierWithin (fuel + 1) last = table.classifierWithin 1 last := by
  obtain htold | hbound := hend
  · obtain ⟨symbol, htold⟩ := Option.ne_none_iff_exists'.mp htold
    rw [classifierWithin, classifierWithin, htold, Option.some_or, Option.some_or]
  · rw [classifierWithin, classifierWithin, hrecord, Option.bind_some, Option.bind_some]
    cases hshape : record.shape <;> rw [hshape] at hbound <;> cases hbound

namespace BoundChain

/-- With steps to spare, the search finds what it finds at the end of the chain. -/
theorem classifierWithin_eq (h : table.BoundChain last steps type) {fuel : Nat} (hfuel : steps < fuel) :
    table.classifierWithin fuel type = table.classifierWithin 1 last := by
  induction h generalizing fuel with
  | stop hrecord hend =>
    obtain ⟨fuel, rfl⟩ := Nat.exists_eq_succ_of_ne_zero hfuel.ne'
    exact classifierWithin_of_end hrecord hend fuel
  | step hrecord htold hbound _ ih =>
    obtain ⟨fuel, rfl⟩ := Nat.exists_eq_succ_of_ne_zero (Nat.ne_zero_of_lt hfuel)
    rw [Nat.succ_eq_add_one, classifierWithin_of_bound hrecord htold hbound]
    exact ih (Nat.lt_of_succ_lt_succ hfuel)

theorem classifier_eq (h : table.BoundChain last steps type) :
    table.classifier type = table.classifierWithin 1 last :=
  h.classifierWithin_eq (h.steps_lt.trans (Nat.lt_succ_self _))

/-- The classifier of a type is what the end of its chain refers to. -/
theorem classifier_eq_some_iff (h : table.BoundChain last steps type) {symbol : SymbolKey} :
    table.classifier type = some symbol ↔ table.RefersTo last symbol := by
  obtain ⟨record, hrecord, hend⟩ := h.last_known
  rw [h.classifier_eq, classifierWithin, hrecord, Option.bind_some]
  cases htold : table.classifiers[last]? with
  | some told =>
    rw [Option.some_or, Option.some.injEq]
    refine ⟨fun heq => .told (heq ▸ htold), fun hrefers => ?_⟩
    cases hrefers with
    | told htold' => exact Option.some.inj (htold.symm.trans htold')
    | classType hnone | functional hnone | typeParameter hnone => cases htold.symm.trans hnone
  | none =>
    rw [Option.none_or]
    constructor
    · intro hfound
      cases hshape : record.shape <;> simp only [hshape] at hfound
      case classType => exact .classType htold hrecord hshape hfound
      case functional => exact .functional htold hrecord hshape hfound
      case typeParameter =>
        cases hfound
        exact .typeParameter htold hrecord hshape
      all_goals cases hfound
    · intro hrefers
      cases hrefers with
      | told htold' => cases htold.symm.trans htold'
      | classType _ hrecord' hshape hname =>
        cases hrecord.symm.trans hrecord'
        rw [hshape]
        exact hname
      | functional _ hrecord' hshape hname =>
        cases hrecord.symm.trans hrecord'
        rw [hshape]
        exact hname
      | typeParameter _ hrecord' hshape =>
        cases hrecord.symm.trans hrecord'
        rw [hshape]

/-- At the end of a chain that refers to a class the class is found by its name. -/
theorem classifier_eq_class (h : table.BoundChain last steps type)
    (hrecord : table.types[last.index]? = some record) (htold : table.classifiers[last]? = none)
    {className : String} (hname : record.shape.className? = some className) :
    table.classifier type = table.classesByName[className]? := by
  rw [h.classifier_eq, classifierWithin, hrecord, htold, Option.none_or, Option.bind_some]
  cases hshape : record.shape <;> rw [hshape] at hname <;> cases hname <;> rfl

/-- A type has no classifier if the end of its chain is not told one, and refers to nothing by itself. -/
theorem classifier_eq_none_iff (h : table.BoundChain last steps type)
    (hrecord : table.types[last.index]? = some record) :
    table.classifier type = none ↔ table.classifiers[last]? = none ∧ table.Unclassified record.shape := by
  obtain ⟨record', hrecord', hend⟩ := h.last_known
  cases hrecord.symm.trans hrecord'
  rw [h.classifier_eq, classifierWithin, hrecord, Option.bind_some, Option.or_eq_none_iff]
  refine and_congr_right fun htold => ?_
  have hbound := hend.resolve_left (not_not.mpr htold)
  cases hshape : record.shape <;> rw [hshape] at hbound
  case flexible | definitelyNotNull => cases hbound
  case classType arguments =>
    exact ⟨.classType arguments, fun hunclassified => by cases hunclassified; assumption⟩
  case functional => exact ⟨.functional, fun hunclassified => by cases hunclassified; assumption⟩
  case typeParameter => exact ⟨nofun, nofun⟩
  case classError name => exact ⟨fun _ => .classError name, fun _ => rfl⟩
  case dynamic => exact ⟨fun _ => .dynamic, fun _ => rfl⟩
  case error => exact ⟨fun _ => .error, fun _ => rfl⟩
  case intersection parts => exact ⟨fun _ => .intersection parts, fun _ => rfl⟩

end BoundChain

end SymbolTable

end SymbolGraph
