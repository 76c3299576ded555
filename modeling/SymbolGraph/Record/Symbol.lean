import SymbolGraph.Record.Source

/-!
# Symbol records

What a front end reports about one symbol. A record has no identity beyond the key it was
asked for with; the graph gives it one.
-/

namespace SymbolGraph

/-- How a front end classifies where a symbol came from. -/
inductive Provenance
  | source
  | library
  | interopSource
  | interopLibrary
  | sourceMemberGenerated
  | plugin
  | delegated
  | substitutionOverride
deriving DecidableEq

/-- Where a symbol stands. -/
inductive SymbolKind
  | classMember
  | topLevel
  | samConstructor
  | inBody
  | accessor
deriving DecidableEq

inductive Visibility
  | publicAccess
  | privateAccess
  | protectedAccess
  | internalAccess
  | localAccess
  | unknown
deriving DecidableEq

inductive Modality
  | final
  | openToSubclasses
  | abstract
  | sealed
deriving DecidableEq

inductive Variance
  | invariant
  | contravariant
  | covariant
deriving DecidableEq

inductive ClassKind
  | plainClass
  | interface
  | enumClass
  | enumEntry
  | object
  | companionObject
  | anonymousObject
  | annotationClass
deriving DecidableEq

structure ClassFlags where
  isData : Bool := false
  isInner : Bool := false
  isValue : Bool := false
  isFun : Bool := false
  isExpect : Bool := false
  isActual : Bool := false
deriving DecidableEq

structure FunctionFlags where
  isExternal : Bool := false
  isInfix : Bool := false
  isInline : Bool := false
  isStatic : Bool := false
  isSuspend : Bool := false
  isOperator : Bool := false
  isOverride : Bool := false
  isTailrec : Bool := false
deriving DecidableEq

structure PropertyFlags where
  isMutable : Bool := false
  isConst : Bool := false
  isLateinit : Bool := false
  isStatic : Bool := false
  isOverride : Bool := false
  isExternal : Bool := false
  hasBackingField : Bool := false
deriving DecidableEq

structure ParameterFlags where
  hasDefaultValue : Bool := false
  isVararg : Bool := false
  isNoinline : Bool := false
  isCrossinline : Bool := false
deriving DecidableEq

structure ClassDetails where
  /-- Absent if the front end could not tell. -/
  kind : Option ClassKind := none
  flags : ClassFlags := {}
  typeParameters : List SymbolKey := []
  supertypes : List TypeKey := []
  constructors : List SymbolKey := []
  members : List SymbolKey := []
deriving DecidableEq

structure FunctionDetails where
  isConstructor : Bool := false
  receiverType : Option TypeKey := none
  typeParameters : List SymbolKey := []
  valueParameters : List SymbolKey := []
  flags : FunctionFlags := {}
  /-- Whether the function is a platform method underneath. -/
  isInteropMethod : Bool := false
deriving DecidableEq

structure PropertyDetails where
  type : TypeKey
  receiverType : Option TypeKey := none
  typeParameters : List SymbolKey := []
  getter : Option SymbolKey := none
  setter : Option SymbolKey := none
  flags : PropertyFlags := {}
deriving DecidableEq

structure ValueParameterDetails where
  type : TypeKey
  flags : ParameterFlags := {}
deriving DecidableEq

structure TypeParameterDetails where
  bounds : List TypeKey := []
  variance : Variance := .invariant
  isReified : Bool := false
deriving DecidableEq

/-- What is particular to one sort of symbol. -/
inductive SymbolDetails
  | classLike (details : ClassDetails)
  | function (details : FunctionDetails)
  | property (details : PropertyDetails)
  | getter (returnType : TypeKey)
  | setter (parameter : Option SymbolKey)
  | valueParameter (details : ValueParameterDetails)
  | typeParameter (details : TypeParameterDetails)
deriving DecidableEq

/-- One symbol as reported. -/
structure SymbolRecord where
  /-- Constructors and anonymous objects have no name. -/
  name : Option String
  details : SymbolDetails
  kind : SymbolKind := .topLevel
  provenance : Provenance := .source
  container : Option SymbolKey := none
  file : Option FileKey := none
  package : String := ""
  visibility : Visibility := .publicAccess
  modality : Option Modality := none
  annotations : List AnnotationKey := []
  source : Option Source := none
deriving DecidableEq

/-! ## Names for messages -/

def SymbolKind.name : SymbolKind → String
  | classMember => "ClassMember"
  | topLevel => "TopLevel"
  | samConstructor => "SamConstructor"
  | inBody => "Local"
  | accessor => "Accessor"

def SymbolDetails.describe : SymbolDetails → String
  | classLike _ => "class"
  | function _ => "function"
  | property _ => "property"
  | getter _ => "getter"
  | setter _ => "setter"
  | valueParameter _ => "value parameter"
  | typeParameter _ => "type parameter"

/-- The name for messages. -/
def SymbolRecord.displayName (symbol : SymbolRecord) : String :=
  symbol.name.getD "<anonymous>"

/-! ## Fresh records

Records as a front end would start them: at top level, public, not yet wired into
anything.
-/

namespace SymbolRecord

def ofClass (name : String) (kind : ClassKind) : SymbolRecord where
  name := name
  details := .classLike { kind }
  modality := some .final

def ofFunction (name : String) : SymbolRecord where
  name := name
  details := .function {}
  modality := some .final

def constructor : SymbolRecord where
  name := none
  details := .function { isConstructor := true }

def ofProperty (name : String) (type : TypeKey) : SymbolRecord where
  name := name
  details := .property { type, flags := { hasBackingField := true } }
  modality := some .final

def ofValueParameter (name : String) (type : TypeKey) : SymbolRecord where
  name := name
  details := .valueParameter { type }

def ofTypeParameter (name : String) : SymbolRecord where
  name := name
  details := .typeParameter {}

def ofGetter (returnType : TypeKey) : SymbolRecord where
  name := none
  details := .getter returnType
  kind := .accessor

/-- A setter without its parameter, which is added as a member. -/
def ofSetter : SymbolRecord where
  name := none
  details := .setter none
  kind := .accessor

end SymbolRecord

end SymbolGraph
