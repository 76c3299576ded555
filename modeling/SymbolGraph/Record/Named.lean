import SymbolGraph.Record.AnnotationUse
import SymbolGraph.Record.Type

/-!
# Names in records

How the values of enumerations and the flags of records are spelled where records are
written down.
-/

namespace SymbolGraph

/-- Types whose values have names. -/
class Named (α : Type) where
  names : List (String × α)

namespace Named

variable {α : Type} [Named α]

/-- The value of a name. -/
def ofName? (name : String) : Option α := names.lookup name

/-- The name of a value. -/
def nameOf [DecidableEq α] (a : α) : String :=
  ((names.find? fun entry : String × α => entry.2 = a).map (·.1)).getD ""

end Named

instance : Named Provenance := ⟨[
  ("Source", .source), ("Library", .library), ("InteropSource", .interopSource),
  ("InteropLibrary", .interopLibrary), ("SourceMemberGenerated", .sourceMemberGenerated),
  ("Plugin", .plugin), ("Delegated", .delegated),
  ("SubstitutionOverride", .substitutionOverride)]⟩

instance : Named SymbolKind := ⟨[
  ("ClassMember", .classMember), ("TopLevel", .topLevel), ("SamConstructor", .samConstructor),
  ("Local", .inBody), ("Accessor", .accessor)]⟩

instance : Named Visibility := ⟨[
  ("Public", .publicAccess), ("Private", .privateAccess), ("Protected", .protectedAccess),
  ("Internal", .internalAccess), ("Local", .localAccess), ("Unknown", .unknown)]⟩

instance : Named Modality := ⟨[
  ("Final", .final), ("Open", .openToSubclasses), ("Abstract", .abstract), ("Sealed", .sealed)]⟩

instance : Named Variance := ⟨[
  ("Invariant", .invariant), ("In", .contravariant), ("Out", .covariant)]⟩

instance : Named ClassKind := ⟨[
  ("Class", .plainClass), ("Interface", .interface), ("EnumClass", .enumClass),
  ("EnumEntry", .enumEntry), ("Object", .object), ("CompanionObject", .companionObject),
  ("AnonymousObject", .anonymousObject), ("AnnotationClass", .annotationClass)]⟩

instance : Named UseSiteTarget := ⟨[
  ("File", .file), ("Property", .property), ("Field", .field), ("PropertyGetter", .getter),
  ("PropertySetter", .setter), ("Receiver", .receiver), ("ConstructorParameter", .parameter),
  ("SetterParameter", .setterParameter), ("PropertyDelegateField", .delegate)]⟩

/-! ## Flags -/

/-- One flag of a record: its name, how it is read and how it is raised. -/
structure Flag (α : Type) where
  name : String
  read : α → Bool
  raise : α → α

/-- Records that consist of flags. -/
class Flagged (α : Type) where
  lowered : α
  flags : List (Flag α)

namespace Flagged

variable {α : Type} [Flagged α]

/-- The flags that are raised, in the order of the record. -/
def names (a : α) : List String := (flags.filter fun flag : Flag α => flag.read a).map Flag.name

/-- The record in which just the flags with these names are raised. -/
def ofNames (names : List String) : α :=
  flags.foldl (fun a flag => if flag.name ∈ names then flag.raise a else a) lowered

end Flagged

instance : Flagged ClassFlags := ⟨{}, [
  ⟨"is_data", (·.isData), ({ · with isData := true })⟩,
  ⟨"is_inner", (·.isInner), ({ · with isInner := true })⟩,
  ⟨"is_value", (·.isValue), ({ · with isValue := true })⟩,
  ⟨"is_fun", (·.isFun), ({ · with isFun := true })⟩,
  ⟨"is_expect", (·.isExpect), ({ · with isExpect := true })⟩,
  ⟨"is_actual", (·.isActual), ({ · with isActual := true })⟩]⟩

instance : Flagged FunctionFlags := ⟨{}, [
  ⟨"is_external", (·.isExternal), ({ · with isExternal := true })⟩,
  ⟨"is_infix", (·.isInfix), ({ · with isInfix := true })⟩,
  ⟨"is_inline", (·.isInline), ({ · with isInline := true })⟩,
  ⟨"is_static", (·.isStatic), ({ · with isStatic := true })⟩,
  ⟨"is_suspend", (·.isSuspend), ({ · with isSuspend := true })⟩,
  ⟨"is_operator", (·.isOperator), ({ · with isOperator := true })⟩,
  ⟨"is_override", (·.isOverride), ({ · with isOverride := true })⟩,
  ⟨"is_tailrec", (·.isTailrec), ({ · with isTailrec := true })⟩]⟩

instance : Flagged PropertyFlags := ⟨{}, [
  ⟨"is_mutable", (·.isMutable), ({ · with isMutable := true })⟩,
  ⟨"is_const", (·.isConst), ({ · with isConst := true })⟩,
  ⟨"is_lateinit", (·.isLateinit), ({ · with isLateinit := true })⟩,
  ⟨"is_static", (·.isStatic), ({ · with isStatic := true })⟩,
  ⟨"is_override", (·.isOverride), ({ · with isOverride := true })⟩,
  ⟨"is_external", (·.isExternal), ({ · with isExternal := true })⟩,
  ⟨"has_backing_field", (·.hasBackingField), ({ · with hasBackingField := true })⟩]⟩

instance : Flagged ParameterFlags := ⟨{}, [
  ⟨"has_default_value", (·.hasDefaultValue), ({ · with hasDefaultValue := true })⟩,
  ⟨"is_vararg", (·.isVararg), ({ · with isVararg := true })⟩,
  ⟨"is_noinline", (·.isNoinline), ({ · with isNoinline := true })⟩,
  ⟨"is_crossinline", (·.isCrossinline), ({ · with isCrossinline := true })⟩]⟩

end SymbolGraph
