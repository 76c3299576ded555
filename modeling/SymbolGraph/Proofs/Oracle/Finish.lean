import Mathlib.Data.List.Basic
import SymbolGraph.Proofs.Oracle.ClassPath

/-!
# What finishing a draft derives

The types that are added when a draft is finished come after those of the draft. They carry no
annotations, and they are put together from one another in the order in which they are added. The
classes are entered under their names in the order of the draft, so of two classes with one name the
later one is found.
-/

namespace SymbolGraph

/-- The types that a type is put together from, as far as the elements of references look into it. -/
def TypeRecord.parts (type : TypeRecord) : List TypeKey :=
  match type.shape with
  | .classType _ arguments => arguments.filterMap TypeArgument.type?
  | .functional f =>
    f.arguments.filterMap TypeArgument.type? ++ f.receiver.toList ++ f.parameters ++ [f.returnType]
  | .flexible lower _ => [lower]
  | .classError _ | .dynamic | .typeParameter _ | .error | .intersection _ | .definitelyNotNull _ =>
    []

/-! ## Derived types -/

/-- Types that may be added to types of which there are `added` from the draft. -/
structure TypeRecord.Derived (added position : Nat) (type : TypeRecord) : Prop where
  annotations : type.annotations = []
  parts : ∀ part ∈ type.parts, added ≤ part.index ∧ part.index < position

/-- The first types are those that were added, and the others are derived. -/
structure Derives (added types : Array TypeRecord) : Prop where
  size_le : added.size ≤ types.size
  old : ∀ {i : Nat}, i < added.size → types[i]? = added[i]?
  derived : ∀ {i : Nat} {type : TypeRecord}, added.size ≤ i → types[i]? = some type →
    type.Derived added.size i

theorem size_appendList (types : Array TypeRecord) (more : List TypeRecord) :
    (types.appendList more).size = types.size + more.length := by
  rw [Array.appendList_eq_append, ← Array.length_toList, Array.toList_appendList,
    List.length_append, Array.length_toList]

namespace Derives

variable {added types : Array TypeRecord}

theorem refl (types : Array TypeRecord) : Derives types types where
  size_le := Nat.le_refl _
  old _ := rfl
  derived hi htype := by
    have hlt := (Array.getElem?_eq_some_iff.mp htype).1
    omega

theorem push (h : Derives added types) {type : TypeRecord}
    (htype : type.Derived added.size types.size) : Derives added (types.push type) where
  size_le := by
    rw [Array.size_push]
    exact Nat.le_succ_of_le h.size_le
  old hi := by
    have hlt := Nat.lt_of_lt_of_le hi h.size_le
    rw [Array.getElem?_push_lt hlt, ← Array.getElem?_eq_getElem hlt]
    exact h.old hi
  derived {i other} hi hother := by
    rw [Array.getElem?_push] at hother
    split at hother
    · cases hother
      subst i
      exact htype
    · exact h.derived hi hother

theorem appendList (h : Derives added types) {more : List TypeRecord}
    (hmore : ∀ type ∈ more, type.annotations = [] ∧ type.parts = []) :
    Derives added (types.appendList more) := by
  induction more generalizing types with
  | nil => exact h
  | cons type more ih =>
    obtain ⟨hannotations, hparts⟩ := hmore type List.mem_cons_self
    have hpush : Derives added (types.push type) := by
      refine h.push ⟨hannotations, fun part hpart => ?_⟩
      rw [hparts] at hpart
      cases hpart
    exact ih hpush fun other hother => hmore other (List.mem_cons_of_mem _ hother)

end Derives

namespace Draft

variable {d : Draft}

/-- What is derived from the first symbols of a draft. -/
def derived (d : Draft) (count : Nat) : Derived :=
  (List.range count).foldl (fun derived i =>
    match d.symbols[i]? with
    | some symbol => Derived.addSymbol d.symbols derived ⟨i⟩ symbol
    | none => derived) { types := d.types }

theorem derived_succ (d : Draft) {count : Nat} {symbol : SymbolRecord}
    (h : d.symbols[count]? = some symbol) :
    d.derived (count + 1) = Derived.addSymbol d.symbols (d.derived count) ⟨count⟩ symbol := by
  rw [derived, List.range_succ, List.foldl_append]
  simp only [List.foldl_cons, List.foldl_nil, h]
  rfl

/-- What holds at first, is not lost on symbols without a name, and holds again after a class is added,
holds in the end. -/
theorem derived_induction {P : Nat → Derived → Prop} (hstart : P 0 { types := d.types })
    (hskip : ∀ {count derived}, P count derived →
      qualifiedClassName d.symbols ⟨count⟩ = none → P (count + 1) derived)
    (hadd : ∀ {count derived name symbol details}, P count derived →
      qualifiedClassName d.symbols ⟨count⟩ = some name → d.symbols[count]? = some symbol →
      symbol.details = .classLike details →
      P (count + 1)
        (derived.addClass d.symbols ⟨count⟩ symbol.displayName details.typeParameters name)) :
    P d.symbols.size (d.derived d.symbols.size) := by
  have hprefix : ∀ count ≤ d.symbols.size, P count (d.derived count) := by
    intro count hcount
    induction count with
    | zero => exact hstart
    | succ count ih =>
      have hsymbol := Array.getElem?_eq_getElem hcount
      have hbefore := ih (Nat.le_of_succ_le hcount)
      rw [d.derived_succ hsymbol, Derived.addSymbol]
      cases hname : qualifiedClassName d.symbols ⟨count⟩ with
      | none =>
        have hnext := hskip hbefore hname
        cases d.symbols[count].details <;> exact hnext
      | some name =>
        obtain ⟨_, _, hpath, _⟩ := path_of_qualifiedClassName hname
        obtain ⟨symbol, details, hsymbol', hdetails⟩ := hpath.exists_classLike
        cases hsymbol.symm.trans hsymbol'
        simp only [hdetails]
        exact hadd hbefore hname hsymbol hdetails
  exact hprefix _ (Nat.le_refl _)

end Draft

namespace Draft.Derived

variable {added : Array TypeRecord} {derived : Derived}

/-- All derived types are well placed, and the type of every class is one of them. -/
structure Placed (added : Array TypeRecord) (derived : Derived) : Prop where
  types : Derives added derived.types
  own : ∀ {key : SymbolKey} {types : ClassTypes}, derived.classTypes[key]? = some types →
    added.size ≤ types.own.index

/-- A class type of its own is put together from the types of its type parameters right before it. -/
theorem Placed.addClass (h : derived.Placed added) (symbols : Array SymbolRecord) (key : SymbolKey)
    (short : String) (parameters : List SymbolKey) (name : String) :
    (derived.addClass symbols key short parameters name).Placed added := by
  have hsize := h.types.size_le
  have hparameters : Derives added (derived.types.appendList (parameters.map fun p =>
      ({ shape := .typeParameter p
         rendered := (symbols[p.index]?.map SymbolRecord.displayName).getD "" } : TypeRecord))) := by
    refine h.types.appendList fun type htype => ?_
    obtain ⟨_, _, rfl⟩ := List.mem_map.mp htype
    exact ⟨rfl, rfl⟩
  refine ⟨?_, ?_⟩
  · refine Derives.push (Derives.push hparameters ?_) ?_
    · refine ⟨rfl, fun part hpart => ?_⟩
      obtain ⟨argument, hargument, hpart⟩ := List.mem_filterMap.mp hpart
      obtain ⟨i, hi, rfl⟩ := List.mem_map.mp hargument
      cases hpart
      rw [List.mem_range] at hi
      rw [size_appendList, List.length_map]
      exact ⟨Nat.le_trans hsize (Nat.le_add_right _ _), Nat.add_lt_add_left hi _⟩
    · refine ⟨rfl, fun part hpart => ?_⟩
      obtain ⟨argument, hargument, hpart⟩ := List.mem_filterMap.mp hpart
      obtain ⟨_, _, rfl⟩ := List.mem_map.mp hargument
      cases hpart
  · intro other types htypes
    rw [Derived.addClass, Std.TreeMap.getElem?_insert] at htypes
    split at htypes
    · cases htypes
      exact Nat.le_trans hsize (Nat.le_add_right _ _)
    · exact h.own htypes

end Draft.Derived

namespace Draft

theorem derived_placed (d : Draft) : (d.derived d.symbols.size).Placed d.types := by
  refine d.derived_induction (P := fun _ => Derived.Placed d.types) ?_ ?_ ?_
  · refine ⟨.refl _, fun h => ?_⟩
    simp at h
  · intro _ _ h _
    exact h
  · intro _ _ _ _ _ h _ _ _
    exact h.addClass _ _ _ _ _

/-- The types of a finished draft are those of the draft and the derived ones. -/
theorem finish_derives (d : Draft) : Derives d.types d.finish.types := by
  have htypes := d.derived_placed.types
  change Derives d.types (if d.withoutReturnType = [] then (d.derived d.symbols.size).types
    else (d.derived d.symbols.size).types.push (.ofClass "kotlin.Unit"))
  split
  · exact htypes
  · refine htypes.push ⟨rfl, fun part hpart => ?_⟩
    cases hpart

theorem finish_own (d : Draft) {key : SymbolKey} {types : ClassTypes}
    (h : d.finish.classTypes[key]? = some types) : d.types.size ≤ types.own.index :=
  d.derived_placed.own h

/-! ## Classes by name -/

/-- The classes that are found by their names after some symbols of a draft were gone through. -/
structure Derived.Latest (symbols : Array SymbolRecord) (count : Nat) (derived : Derived) : Prop where
  named : ∀ {name : String} {key : SymbolKey}, derived.classesByName[name]? = some key →
    qualifiedClassName symbols key = some name
  latest : ∀ {name : String} {key : SymbolKey}, key.index < count →
    qualifiedClassName symbols key = some name →
    ∃ last, derived.classesByName[name]? = some last ∧ key.index ≤ last.index

theorem derived_latest (d : Draft) :
    (d.derived d.symbols.size).Latest d.symbols d.symbols.size := by
  refine d.derived_induction (P := Derived.Latest d.symbols) ?_ ?_ ?_
  · refine ⟨fun h => ?_, fun h => absurd h (Nat.not_lt_zero _)⟩
    simp at h
  · intro count derived h hnone
    refine ⟨h.named, fun {name key} hkey hname => h.latest ?_ hname⟩
    refine Nat.lt_of_le_of_ne (Nat.le_of_lt_succ hkey) fun heq => ?_
    subst heq
    cases hnone.symm.trans hname
  · intro count derived name _ _ h hadded _ _
    refine ⟨fun {other key} hkey => ?_, fun {other key} hkey hother => ?_⟩
    · rw [Derived.addClass, Std.TreeMap.getElem?_insert] at hkey
      split at hkey
      · rename_i heq
        cases hkey
        rw [← Std.LawfulEqCmp.eq_of_compare heq]
        exact hadded
      · exact h.named hkey
    · rw [Derived.addClass, Std.TreeMap.getElem?_insert]
      split
      · exact ⟨_, rfl, Nat.le_of_lt_succ hkey⟩
      · rename_i hne
        refine h.latest (Nat.lt_of_le_of_ne (Nat.le_of_lt_succ hkey) fun heq => ?_) hother
        subst heq
        cases hadded.symm.trans hother
        exact hne Std.ReflCmp.compare_self

/-- What is found by a name has the name. -/
theorem qualifiedClassName_of_classesByName (d : Draft) {name : String} {key : SymbolKey}
    (h : d.finish.classesByName[name]? = some key) :
    qualifiedClassName d.symbols key = some name :=
  d.derived_latest.named h

/-- By the name of a class the last class of this name is found. -/
theorem exists_classesByName (d : Draft) {name : String} {key : SymbolKey}
    (h : qualifiedClassName d.symbols key = some name) :
    ∃ last, d.finish.classesByName[name]? = some last ∧
      ∀ other, qualifiedClassName d.symbols other = some name → other.index ≤ last.index := by
  have hlatest {other : SymbolKey} (hother : qualifiedClassName d.symbols other = some name) :
      ∃ last, d.finish.classesByName[name]? = some last ∧ other.index ≤ last.index := by
    obtain ⟨_, _, hpath, _⟩ := path_of_qualifiedClassName hother
    obtain ⟨_, _, hsymbol, _⟩ := hpath.exists_classLike
    exact d.derived_latest.latest (Array.getElem?_eq_some_iff.mp hsymbol).1 hother
  -- The same class is found for all of them.
  obtain ⟨last, hlast, _⟩ := hlatest h
  refine ⟨last, hlast, fun other hother => ?_⟩
  obtain ⟨last', hlast', hle⟩ := hlatest hother
  cases hlast.symm.trans hlast'
  exact hle

/-! ## Types of classes -/

/-- The types of classes are among the derived types, and every class that was gone through and has a name
has them. -/
structure Derived.Typed (symbols : Array SymbolRecord) (count : Nat) (derived : Derived) : Prop where
  known : ∀ {key : SymbolKey} {types : ClassTypes}, derived.classTypes[key]? = some types →
    types.own.index < derived.types.size ∧ types.star.index < derived.types.size
  typed : ∀ {key : SymbolKey} {name : String}, key.index < count →
    qualifiedClassName symbols key = some name → ∃ types, derived.classTypes[key]? = some types

theorem Derived.Typed.addClass {symbols : Array SymbolRecord} {count : Nat} {derived : Derived}
    (h : derived.Typed symbols count) (short : String) (parameters : List SymbolKey) (name : String) :
    (derived.addClass symbols ⟨count⟩ short parameters name).Typed symbols (count + 1) := by
  have hsize : (derived.addClass symbols ⟨count⟩ short parameters name).types.size =
      derived.types.size + parameters.length + 2 := by
    simp only [Derived.addClass, Array.size_push, size_appendList, List.length_map]
  constructor
  · intro key types htypes
    rw [hsize]
    rw [Derived.addClass, Std.TreeMap.getElem?_insert] at htypes
    split at htypes
    · cases htypes
      constructor <;> simp only <;> omega
    · have := h.known htypes
      omega
  · intro key other hkey hother
    rw [Derived.addClass, Std.TreeMap.getElem?_insert]
    split
    · exact ⟨_, rfl⟩
    · rename_i hne
      refine h.typed (Nat.lt_of_le_of_ne (Nat.le_of_lt_succ hkey) fun heq => ?_) hother
      subst heq
      exact hne Std.ReflCmp.compare_self

theorem derived_typed (d : Draft) :
    (d.derived d.symbols.size).Typed d.symbols d.symbols.size := by
  refine d.derived_induction (P := Derived.Typed d.symbols) ?_ ?_ ?_
  · refine ⟨fun h => ?_, fun h => absurd h (Nat.not_lt_zero _)⟩
    simp at h
  · intro count derived h hnone
    refine ⟨h.known, fun {key name} hkey hname => h.typed ?_ hname⟩
    refine Nat.lt_of_le_of_ne (Nat.le_of_lt_succ hkey) fun heq => ?_
    subst heq
    cases hnone.symm.trans hname
  · intro count derived name _ _ h _ _ _
    exact h.addClass _ _ name

/-- The types of a class are types of the table. -/
theorem finish_classTypes_known (d : Draft) {key : SymbolKey} {types : ClassTypes}
    (h : d.finish.classTypes[key]? = some types) :
    types.own.index < d.finish.types.size ∧ types.star.index < d.finish.types.size := by
  have hknown := d.derived_typed.known h
  have hle : (d.derived d.symbols.size).types.size ≤ d.finish.types.size := by
    change _ ≤ (if d.withoutReturnType = [] then (d.derived d.symbols.size).types
      else (d.derived d.symbols.size).types.push (.ofClass "kotlin.Unit")).size
    split <;> simp
  omega

/-- A class with a qualified name has types. -/
theorem exists_classTypes (d : Draft) {key : SymbolKey} {name : String}
    (h : qualifiedClassName d.symbols key = some name) :
    ∃ types, d.finish.classTypes[key]? = some types := by
  obtain ⟨_, _, hpath, _⟩ := path_of_qualifiedClassName h
  obtain ⟨_, _, hsymbol, _⟩ := hpath.exists_classLike
  exact d.derived_typed.typed (Array.getElem?_eq_some_iff.mp hsymbol).1 h

/-! ## Return types -/

theorem getElem?_foldl_insert (keys : List SymbolKey) (type : TypeKey)
    (known : Std.TreeMap SymbolKey TypeKey) (key : SymbolKey) :
    (keys.foldl (fun known f => known.insert f type) known)[key]? =
      if key ∈ keys then some type else known[key]? := by
  induction keys generalizing known with
  | nil => simp
  | cons first keys ih =>
    rw [List.foldl_cons, ih, Std.TreeMap.getElem?_insert]
    by_cases hfirst : first = key
    · simp [hfirst]
    · simp [hfirst, Ne.symm hfirst]

theorem mem_withoutReturnType {d : Draft} {key : SymbolKey} : key ∈ d.withoutReturnType ↔
    (∃ symbol f, d.symbols[key.index]? = some symbol ∧ symbol.details = .function f) ∧
      d.returnTypes.known[key]? = none := by
  have hknown {key : SymbolKey} :
      d.returnTypes.known.contains key = true ↔ d.returnTypes.known[key]? ≠ none := by
    rw [Std.TreeMap.contains_eq_isSome_getElem?, Option.isSome_iff_ne_none]
  rw [withoutReturnType, List.mem_filterMap]
  constructor
  · rintro ⟨i, -, hi⟩
    split at hi
    · rename_i f hdetails
      obtain ⟨symbol, hsymbol, hdetails⟩ := Option.map_eq_some_iff.mp hdetails
      split at hi
      · cases hi
      · rename_i hnone
        cases hi
        exact ⟨⟨symbol, f, hsymbol, hdetails⟩, by simpa [hknown] using hnone⟩
    · cases hi
  · rintro ⟨⟨symbol, f, hsymbol, hdetails⟩, hnone⟩
    refine ⟨key.index, List.mem_range.mpr (Array.getElem?_eq_some_iff.mp hsymbol).1, ?_⟩
    have hunknown : ¬ d.returnTypes.known.contains key = true := fun h => hknown.mp h hnone
    simp [hsymbol, hdetails, hunknown]

/-- The key of the type that functions without a recorded return type return. -/
def unitType (d : Draft) : TypeKey := ⟨(d.derived d.symbols.size).types.size⟩

theorem finish_unitType {d : Draft} {key : SymbolKey} (h : key ∈ d.withoutReturnType) :
    d.finish.types[d.unitType.index]? = some (.ofClass "kotlin.Unit") := by
  change (if d.withoutReturnType = [] then (d.derived d.symbols.size).types
    else (d.derived d.symbols.size).types.push (.ofClass "kotlin.Unit"))[_]? = _
  rw [if_neg (List.ne_nil_of_mem h), unitType, Array.getElem?_push_size]

/-- A function has the return type that was recorded for it, or else the one for such functions. -/
theorem finish_returnType (d : Draft) {key : SymbolKey} {symbol : SymbolRecord}
    {details : FunctionDetails} (hsymbol : d.symbols[key.index]? = some symbol)
    (hdetails : symbol.details = .function details) :
    d.finish.returnTypes.known[key]? = some (d.returnTypes.known[key]?.getD d.unitType) := by
  refine (getElem?_foldl_insert d.withoutReturnType d.unitType _ key).trans ?_
  split
  · rename_i hmem
    rw [(mem_withoutReturnType.mp hmem).2, Option.getD_none]
  · rename_i hmem
    cases hknown : d.returnTypes.known[key]? with
    | none => exact absurd (mem_withoutReturnType.mpr ⟨⟨_, _, hsymbol, hdetails⟩, hknown⟩) hmem
    | some type => rfl

/-- Every function has a return type in the end. -/
theorem exists_returnType (d : Draft) {key : SymbolKey} {symbol : SymbolRecord}
    {details : FunctionDetails} (hsymbol : d.symbols[key.index]? = some symbol)
    (hdetails : symbol.details = .function details) :
    ∃ type, d.finish.returnTypes.known[key]? = some type :=
  ⟨_, d.finish_returnType hsymbol hdetails⟩

end Draft

end SymbolGraph
