import SymbolGraph.Key

/-!
# Handles

A node of the graph is addressed by its kind and a number, and never held by another node.
Resolved types are addressed in the same way but are no nodes: they have no place in the
tree. Handles say nothing by themselves; a session gives them a meaning.
-/

namespace SymbolGraph

/-- The kinds of node, in the order in which nodes of different kinds are sorted. -/
inductive NodeKind
  | file
  | classLike
  | function
  | property
  | getter
  | setter
  | valueParameter
  | typeParameter
  | typeReference
  | classifierReference
  | callableReference
  | dynamicReference
  | annotationUse
  | valueArgument
deriving DecidableEq

namespace NodeKind

def rank : NodeKind → Nat
  | file => 0
  | classLike => 1
  | function => 2
  | property => 3
  | getter => 4
  | setter => 5
  | valueParameter => 6
  | typeParameter => 7
  | typeReference => 8
  | classifierReference => 9
  | callableReference => 10
  | dynamicReference => 11
  | annotationUse => 12
  | valueArgument => 13

theorem rank_injective {a b : NodeKind} (h : a.rank = b.rank) : a = b := by
  cases a <;> cases b <;> first | rfl | exact absurd h (by decide)

def name : NodeKind → String
  | file => "file"
  | classLike => "class"
  | function => "function"
  | property => "property"
  | getter => "getter"
  | setter => "setter"
  | valueParameter => "value parameter"
  | typeParameter => "type parameter"
  | typeReference => "type reference"
  | classifierReference => "classifier reference"
  | callableReference => "callable reference"
  | dynamicReference => "dynamic reference"
  | annotationUse => "annotation"
  | valueArgument => "value argument"

/-- The name of the kind in the text of a handle. -/
def tag : NodeKind → String
  | file => "File"
  | classLike => "Class"
  | function => "Function"
  | property => "Property"
  | getter => "Getter"
  | setter => "Setter"
  | valueParameter => "ValueParameter"
  | typeParameter => "TypeParameter"
  | typeReference => "TypeReference"
  | classifierReference => "ClassifierReference"
  | callableReference => "CallableReference"
  | dynamicReference => "DynamicReference"
  | annotationUse => "Annotation"
  | valueArgument => "ValueArgument"

/-- The name of a number of this kind in the text of a handle. -/
def idTag (kind : NodeKind) : String :=
  if kind = file then "SourceFileId" else kind.tag ++ "Id"

def isDeclaration : NodeKind → Bool
  | classLike | function | property | typeParameter => true
  | _ => false

end NodeKind

/-- The kinds of wrapper: the nodes, and resolved types. -/
inductive Kind
  | node (kind : NodeKind)
  | resolvedType
deriving DecidableEq

namespace Kind

def name : Kind → String
  | node kind => kind.name
  | resolvedType => "type"

/-- Every kind, in the order of reports. -/
def all : List Kind :=
  [.node .file, .node .classLike, .node .function, .node .property, .node .getter,
    .node .setter, .node .valueParameter, .node .typeParameter, .node .typeReference,
    .node .classifierReference, .node .callableReference, .node .dynamicReference,
    .resolvedType, .node .annotationUse, .node .valueArgument]

theorem mem_all (kind : Kind) : kind ∈ all := by
  rcases kind with (_ | _) | _ <;> decide

end Kind

/-- The number of a wrapper among those of its kind. -/
structure Handle (kind : Kind) where
  index : Nat
deriving DecidableEq

/-- The address of a node of any kind. -/
structure NodeId where
  kind : NodeKind
  index : Nat
deriving DecidableEq

instance (kind : Kind) : Coded (Handle kind) :=
  ⟨fun h => [h.index], by rintro ⟨a⟩ ⟨b⟩ h; simpa using h⟩

instance : Coded NodeId where
  code node := [node.kind.rank, node.index]
  code_injective := by
    rintro ⟨a, i⟩ ⟨b, j⟩ h
    simp only [List.cons.injEq, and_true] at h
    rw [NodeKind.rank_injective h.1, h.2]

def Handle.node {kind : NodeKind} (h : Handle (.node kind)) : NodeId := ⟨kind, h.index⟩

namespace NodeId

def handle (node : NodeId) : Handle (.node node.kind) := ⟨node.index⟩

@[simp] theorem handle_node (node : NodeId) : node.handle.node = node := rfl

def isDeclaration (node : NodeId) : Bool := node.kind.isDeclaration

/-- Nodes by kind, and those of one kind by number. -/
def sort (nodes : List NodeId) : List NodeId := nodes.mergeSort fun a b => (compare a b).isLE

/-- The number of a node, for messages. -/
def idText (node : NodeId) : String := s!"{node.kind.idTag}({node.index})"

/-- A node, for messages. -/
def text (node : NodeId) : String := s!"{node.kind.tag}({node.idText})"

/-- A node that may be missing, for messages. -/
def optionText : Option NodeId → String
  | none => "None"
  | some node => s!"Some({node.text})"

end NodeId

abbrev FileId := Handle (.node .file)
abbrev ClassId := Handle (.node .classLike)
abbrev FunctionId := Handle (.node .function)
abbrev PropertyId := Handle (.node .property)
abbrev GetterId := Handle (.node .getter)
abbrev SetterId := Handle (.node .setter)
abbrev ValueParameterId := Handle (.node .valueParameter)
abbrev TypeParameterId := Handle (.node .typeParameter)
abbrev TypeReferenceId := Handle (.node .typeReference)
abbrev ClassifierReferenceId := Handle (.node .classifierReference)
abbrev CallableReferenceId := Handle (.node .callableReference)
abbrev DynamicReferenceId := Handle (.node .dynamicReference)
abbrev AnnotationId := Handle (.node .annotationUse)
abbrev ValueArgumentId := Handle (.node .valueArgument)
abbrev TypeId := Handle .resolvedType

end SymbolGraph
