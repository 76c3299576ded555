import SymbolGraph.Record.Type

/-!
# Modifiers

The modifiers of a declaration. They come from keywords as written, from the visibility,
modality and variance of the symbol, and from the flags of its record. A set of modifiers
carries no order and holds each modifier once.
-/

namespace SymbolGraph

inductive Modifier
  | publicAccess
  | privateAccess
  | internalAccess
  | protectedAccess
  | contravariant
  | covariant
  | overriding
  | lateinit
  | enumeration
  | sealed
  | annotationClass
  | data
  | inner
  | functional
  | value
  | suspend
  | tailrec
  | operator
  | infixCall
  | inlined
  | external
  | abstract
  | final
  | openToSubclasses
  | vararg
  | notInlined
  | crossInlined
  | reified
  | expect
  | actual
  | const
  | platformDefault
  | platformNative
  | platformStatic
  | platformStrict
  | platformSynchronized
  | platformTransient
  | platformVolatile
deriving DecidableEq

namespace Modifier

def name : Modifier → String
  | publicAccess => "Public"
  | privateAccess => "Private"
  | internalAccess => "Internal"
  | protectedAccess => "Protected"
  | contravariant => "In"
  | covariant => "Out"
  | overriding => "Override"
  | lateinit => "Lateinit"
  | enumeration => "Enum"
  | sealed => "Sealed"
  | annotationClass => "Annotation"
  | data => "Data"
  | inner => "Inner"
  | functional => "Fun"
  | value => "Value"
  | suspend => "Suspend"
  | tailrec => "Tailrec"
  | operator => "Operator"
  | infixCall => "Infix"
  | inlined => "Inline"
  | external => "External"
  | abstract => "Abstract"
  | final => "Final"
  | openToSubclasses => "Open"
  | vararg => "Vararg"
  | notInlined => "Noinline"
  | crossInlined => "Crossinline"
  | reified => "Reified"
  | expect => "Expect"
  | actual => "Actual"
  | const => "Const"
  | platformDefault => "JavaDefault"
  | platformNative => "JavaNative"
  | platformStatic => "JavaStatic"
  | platformStrict => "JavaStrict"
  | platformSynchronized => "JavaSynchronized"
  | platformTransient => "JavaTransient"
  | platformVolatile => "JavaVolatile"

/-- The modifier that a keyword of the native language stands for. -/
def ofKeyword? : String → Option Modifier
  | "public" => some publicAccess
  | "private" => some privateAccess
  | "internal" => some internalAccess
  | "protected" => some protectedAccess
  | "in" => some contravariant
  | "out" => some covariant
  | "override" => some overriding
  | "lateinit" => some lateinit
  | "enum" => some enumeration
  | "sealed" => some sealed
  | "annotation" => some annotationClass
  | "data" => some data
  | "inner" => some inner
  | "fun" => some functional
  | "value" => some value
  | "suspend" => some suspend
  | "tailrec" => some tailrec
  | "operator" => some operator
  | "infix" => some infixCall
  | "inline" => some inlined
  | "external" => some external
  | "abstract" => some abstract
  | "final" => some final
  | "open" => some openToSubclasses
  | "vararg" => some vararg
  | "noinline" => some notInlined
  | "crossinline" => some crossInlined
  | "reified" => some reified
  | "expect" => some expect
  | "actual" => some actual
  | "const" => some const
  | _ => none

/-- The modifier that a keyword of the platform language stands for. -/
def ofInteropKeyword? : String → Option Modifier
  | "public" => some publicAccess
  | "private" => some privateAccess
  | "protected" => some protectedAccess
  | "abstract" => some abstract
  | "final" => some final
  | "static" => some platformStatic
  | "default" => some platformDefault
  | "native" => some platformNative
  | "strictfp" => some platformStrict
  | "synchronized" => some platformSynchronized
  | "transient" => some platformTransient
  | "volatile" => some platformVolatile
  | _ => none

def ofVisibility? : Visibility → Option Modifier
  | .publicAccess => some publicAccess
  | .privateAccess => some privateAccess
  | .protectedAccess => some protectedAccess
  | .internalAccess => some internalAccess
  | .localAccess | .unknown => none

def ofModality : Modality → Modifier
  | .final => final
  | .openToSubclasses => openToSubclasses
  | .abstract => abstract
  | .sealed => sealed

def ofVariance? : Variance → Option Modifier
  | .invariant => none
  | .contravariant => some contravariant
  | .covariant => some covariant

end Modifier

/-- A set of modifiers, each listed once. -/
structure ModifierSet where
  elements : List Modifier := []
  nodup : elements.Nodup := by simp
deriving DecidableEq

namespace ModifierSet

instance : EmptyCollection ModifierSet := ⟨{}⟩

instance : Membership Modifier ModifierSet := ⟨fun set m => m ∈ set.elements⟩

instance (m : Modifier) (set : ModifierSet) : Decidable (m ∈ set) :=
  inferInstanceAs (Decidable (m ∈ set.elements))

def insert (set : ModifierSet) (m : Modifier) : ModifierSet :=
  if h : m ∈ set.elements then set
  else ⟨m :: set.elements, List.nodup_cons.2 ⟨h, set.nodup⟩⟩

/-- Adds a modifier if a flag is set. -/
def insertIf (set : ModifierSet) (flag : Bool) (m : Modifier) : ModifierSet :=
  if flag then set.insert m else set

/-- Adds the modifiers of a list. -/
def insertMany (set : ModifierSet) (ms : List Modifier) : ModifierSet := ms.foldl insert set

def ofList (ms : List Modifier) : ModifierSet := insertMany ∅ ms

theorem mem_insert {set : ModifierSet} {m n : Modifier} : n ∈ set.insert m ↔ n = m ∨ n ∈ set := by
  simp only [insert, Membership.mem]
  split
  · constructor
    · exact Or.inr
    · rintro (rfl | h) <;> assumption
  · exact List.mem_cons

/-- The modifiers of native keywords; words that are no modifiers are passed over. -/
def ofKeywords (words : List String) : ModifierSet :=
  ofList (words.filterMap Modifier.ofKeyword?)

/-- The modifiers written on a declaration, read by the keywords of its language. A language that
is neither the native nor the platform one contributes none. -/
def ofSource (source : Source) : ModifierSet :=
  match source.form with
  | .native => ofKeywords source.keywords
  | .interop => ofList (source.keywords.filterMap Modifier.ofInteropKeyword?)
  | .other _ => ∅

end ModifierSet

/-- The modifiers written as keywords on a symbol. -/
def SymbolRecord.keywordModifiers (symbol : SymbolRecord) : ModifierSet :=
  match symbol.source with
  | some source => .ofSource source
  | none => ∅

/-- Those, and the ones for visibility and modality. -/
def SymbolRecord.declaredModifiers (symbol : SymbolRecord) : ModifierSet :=
  (symbol.keywordModifiers.insertMany (Modifier.ofVisibility? symbol.visibility).toList).insertMany
    (symbol.modality.map Modifier.ofModality).toList

end SymbolGraph
