import SymbolGraph.Identity.Cache
import SymbolGraph.Node.Wrapper

/-!
# The caches of a session

One identity cache for each kind of wrapper, and the counts that are reported of them.
-/

namespace SymbolGraph

/-- The cache of one kind. -/
abbrev Cache (kind : Kind) := IdentityCache kind.Key kind.Wrapper

structure Caches where
  files : Cache (.node .file) := {}
  classes : Cache (.node .classLike) := {}
  functions : Cache (.node .function) := {}
  properties : Cache (.node .property) := {}
  getters : Cache (.node .getter) := {}
  setters : Cache (.node .setter) := {}
  valueParameters : Cache (.node .valueParameter) := {}
  typeParameters : Cache (.node .typeParameter) := {}
  typeReferences : Cache (.node .typeReference) := {}
  classifierReferences : Cache (.node .classifierReference) := {}
  callableReferences : Cache (.node .callableReference) := {}
  dynamicReferences : Cache (.node .dynamicReference) := {}
  resolvedTypes : Cache .resolvedType := {}
  annotations : Cache (.node .annotationUse) := {}
  valueArguments : Cache (.node .valueArgument) := {}

namespace Caches

def get (caches : Caches) : (kind : Kind) → Cache kind
  | .node .file => caches.files
  | .node .classLike => caches.classes
  | .node .function => caches.functions
  | .node .property => caches.properties
  | .node .getter => caches.getters
  | .node .setter => caches.setters
  | .node .valueParameter => caches.valueParameters
  | .node .typeParameter => caches.typeParameters
  | .node .typeReference => caches.typeReferences
  | .node .classifierReference => caches.classifierReferences
  | .node .callableReference => caches.callableReferences
  | .node .dynamicReference => caches.dynamicReferences
  | .resolvedType => caches.resolvedTypes
  | .node .annotationUse => caches.annotations
  | .node .valueArgument => caches.valueArguments

def set (caches : Caches) : (kind : Kind) → Cache kind → Caches
  | .node .file, c => { caches with files := c }
  | .node .classLike, c => { caches with classes := c }
  | .node .function, c => { caches with functions := c }
  | .node .property, c => { caches with properties := c }
  | .node .getter, c => { caches with getters := c }
  | .node .setter, c => { caches with setters := c }
  | .node .valueParameter, c => { caches with valueParameters := c }
  | .node .typeParameter, c => { caches with typeParameters := c }
  | .node .typeReference, c => { caches with typeReferences := c }
  | .node .classifierReference, c => { caches with classifierReferences := c }
  | .node .callableReference, c => { caches with callableReferences := c }
  | .node .dynamicReference, c => { caches with dynamicReferences := c }
  | .resolvedType, c => { caches with resolvedTypes := c }
  | .node .annotationUse, c => { caches with annotations := c }
  | .node .valueArgument, c => { caches with valueArguments := c }

@[simp] theorem get_set_self (caches : Caches) (kind : Kind) (c : Cache kind) :
    (caches.set kind c).get kind = c := by
  rcases kind with (_ | _) | _ <;> rfl

theorem get_set_of_ne (caches : Caches) {kind other : Kind} (c : Cache kind) (h : other ≠ kind) :
    (caches.set kind c).get other = caches.get other := by
  rcases kind with (_ | _) | _ <;> rcases other with (_ | _) | _ <;> first | rfl | exact absurd rfl h

/-- The names of the caches, in the order of their fields. -/
def label : Kind → String
  | .node .file => "files"
  | .node .classLike => "classes"
  | .node .function => "functions"
  | .node .property => "properties"
  | .node .getter => "getters"
  | .node .setter => "setters"
  | .node .valueParameter => "value_parameters"
  | .node .typeParameter => "type_parameters"
  | .node .typeReference => "type_references"
  | .node .classifierReference => "classifier_references"
  | .node .callableReference => "callable_references"
  | .node .dynamicReference => "dynamic_references"
  | .resolvedType => "types"
  | .node .annotationUse => "annotations"
  | .node .valueArgument => "value_arguments"

/-- The caches, for messages. -/
def text (caches : Caches) : String :=
  let parts := Kind.all.map fun kind => label kind ++ ": " ++ (caches.get kind).text
  "SymbolCaches \x7b " ++ ", ".intercalate parts ++ " \x7d"

end Caches

/-! ## Counts -/

/-- How many wrappers there are of each kind, in the order of reports. -/
structure CacheStats where
  counts : List (String × Nat)
deriving DecidableEq

namespace CacheStats

/-- The count of a kind by its name; unknown kinds have none. -/
def get (stats : CacheStats) (kind : String) : Nat := (stats.counts.lookup kind).getD 0

def total (stats : CacheStats) : Nat := stats.counts.foldr (fun (_, n) sum => n + sum) 0

/-- The total, and the counts that are not zero. -/
def text (stats : CacheStats) : String :=
  let shown := (stats.counts.filter (0 < ·.2)).map fun (kind, n) => s!"{kind}={n}"
  let list := ", ".intercalate shown
  s!"{stats.total} wrappers ({list})"

end CacheStats

def Caches.stats (caches : Caches) : CacheStats :=
  ⟨Kind.all.map fun kind => (kind.name, (caches.get kind).size)⟩

end SymbolGraph
