import SymbolGraph.Node.Handle
import SymbolGraph.Origin
import SymbolGraph.Record.AnnotationUse
import SymbolGraph.Record.Type

/-!
# Wrappers

What a session makes of the records: one wrapper for each node and each resolved type. A
wrapper carries its own handle, what it was created from, and the handles of the nodes
above it. Nothing in it changes; what is found out later is kept beside it (see
`SymbolGraph.Node.Field`).

Each kind of wrapper has its own kind of key, and two requests with one key get one
wrapper.
-/

namespace SymbolGraph

/-! ## Keys -/

/-- An accessor is told apart by its property and its symbol. -/
structure AccessorKey where
  receiver : PropertyId
  symbol : SymbolKey
deriving DecidableEq

/-- A value parameter is told apart by its symbol and the node that owns it. -/
structure ValueParameterKey where
  symbol : SymbolKey
  parent : NodeId
deriving DecidableEq

/-- A type reference is told apart by its type, its owner, and its position among the
supertypes or bounds of the owner, which is negative outside such lists. -/
structure TypeReferenceKey where
  type : TypeKey
  parent : Option NodeId
  index : Int
deriving DecidableEq

/-- The element of a type reference is told apart by its type and the reference. -/
structure ElementKey where
  type : TypeKey
  owner : TypeReferenceId
deriving DecidableEq

/-- An application of an annotation is told apart by its key and the node that bears it. -/
structure AnnotationUseKey where
  key : AnnotationKey
  parent : Option NodeId
deriving DecidableEq

/-- Where an argument comes from: the n-th one written, or the default of a parameter. -/
inductive ArgumentSource
  | written (position : Nat)
  | default (parameter : SymbolKey)
deriving DecidableEq

/-- An argument is told apart by its annotation and where it comes from. -/
structure ArgumentKey where
  owner : AnnotationId
  source : ArgumentSource
deriving DecidableEq

instance : Coded AccessorKey where
  code key := [key.receiver.index, key.symbol.index]
  code_injective := by rintro ⟨⟨_⟩, ⟨_⟩⟩ ⟨⟨_⟩, ⟨_⟩⟩ h; simpa using h

instance : Coded ValueParameterKey where
  code key := key.symbol.index :: Coded.code key.parent
  code_injective := by
    rintro ⟨⟨_⟩, p⟩ ⟨⟨_⟩, q⟩ h
    simp only [List.cons.injEq] at h
    simp [h.1, Coded.code_injective h.2]

instance : Coded TypeReferenceKey where
  code key := key.type.index :: (Coded.ofInt key.index ++ Coded.code key.parent)
  code_injective := by
    rintro ⟨⟨_⟩, p, i⟩ ⟨⟨_⟩, q, j⟩ h
    simp only [List.cons.injEq] at h
    obtain ⟨index, parent⟩ := List.append_inj h.2 rfl
    simp [h.1, Coded.ofInt_injective index, Coded.code_injective parent]

instance : Coded ElementKey where
  code key := [key.type.index, key.owner.index]
  code_injective := by rintro ⟨⟨_⟩, ⟨_⟩⟩ ⟨⟨_⟩, ⟨_⟩⟩ h; simpa using h

instance : Coded AnnotationUseKey where
  code key := key.key.index :: Coded.code key.parent
  code_injective := by
    rintro ⟨⟨_⟩, p⟩ ⟨⟨_⟩, q⟩ h
    simp only [List.cons.injEq] at h
    simp [h.1, Coded.code_injective h.2]

instance : Coded ArgumentSource where
  code
    | .written position => [0, position]
    | .default parameter => [1, parameter.index]
  code_injective := by
    rintro (_ | ⟨⟨_⟩⟩) (_ | ⟨⟨_⟩⟩) h <;> simp_all

instance : Coded ArgumentKey where
  code key := key.owner.index :: Coded.code key.source
  code_injective := by
    rintro ⟨⟨_⟩, p⟩ ⟨⟨_⟩, q⟩ h
    simp only [List.cons.injEq] at h
    simp [h.1, Coded.code_injective h.2]

/-! ## Wrappers -/

structure FileNode where
  id : FileId
  key : FileKey
  file : FileRecord
deriving DecidableEq

/-- What every wrapper of a symbol has. -/
structure WrappedSymbol where
  key : SymbolKey
  symbol : SymbolRecord
deriving DecidableEq

structure ClassNode extends WrappedSymbol where
  id : ClassId
  details : ClassDetails
deriving DecidableEq

structure FunctionNode extends WrappedSymbol where
  id : FunctionId
  details : FunctionDetails
deriving DecidableEq

structure PropertyNode extends WrappedSymbol where
  id : PropertyId
  details : PropertyDetails
deriving DecidableEq

/-- What getters and setters have in common. -/
structure Accessor extends WrappedSymbol where
  /-- The owning property. -/
  receiver : PropertyId
deriving DecidableEq

structure GetterNode extends Accessor where
  id : GetterId
  returnTypeKey : TypeKey
deriving DecidableEq

structure SetterNode extends Accessor where
  id : SetterId
  parameterKey : Option SymbolKey
deriving DecidableEq

structure ValueParameterNode extends WrappedSymbol where
  id : ValueParameterId
  details : ValueParameterDetails
  parent : NodeId
deriving DecidableEq

structure TypeParameterNode extends WrappedSymbol where
  id : TypeParameterId
  details : TypeParameterDetails
deriving DecidableEq

/-- One use of a type at one place in the tree. -/
structure TypeReference where
  id : TypeReferenceId
  type : TypeKey
  parent : Option NodeId
  /-- The position in the owner's supertype or bound list, or negative. -/
  index : Int
  origin : Origin
deriving DecidableEq

/-- A type reference that names a class. -/
structure ClassifierReference where
  id : ClassifierReferenceId
  type : TypeKey
  owner : TypeReferenceId
  origin : Origin
  className : String
  arguments : List (TypeArgument TypeKey)
deriving DecidableEq

/-- A type reference that names a functional type. -/
structure CallableReference where
  id : CallableReferenceId
  type : TypeKey
  owner : TypeReferenceId
  origin : Origin
  shape : FunctionalType
deriving DecidableEq

/-- A type reference that names the dynamic type. -/
structure DynamicReference where
  id : DynamicReferenceId
  owner : TypeReferenceId
  origin : Origin
deriving DecidableEq

/-- A type by itself, apart from its uses. -/
structure ResolvedType where
  id : TypeId
  key : TypeKey
  type : TypeRecord
deriving DecidableEq

structure AnnotationNode where
  id : AnnotationId
  key : AnnotationKey
  record : AnnotationRecord
  parent : Option NodeId

structure ArgumentNode where
  id : ValueArgumentId
  owner : AnnotationId
  name : Option String
  value : AnnotationValue
  origin : Origin
  position : Option Position

/-! ## By kind -/

/-- What wrappers of a kind are told apart by. -/
@[reducible] def NodeKind.Key : NodeKind → Type
  | file => FileKey
  | classLike | function | property | typeParameter => SymbolKey
  | getter | setter => AccessorKey
  | valueParameter => ValueParameterKey
  | typeReference => TypeReferenceKey
  | classifierReference | callableReference => ElementKey
  | dynamicReference => TypeReferenceId
  | annotationUse => AnnotationUseKey
  | valueArgument => ArgumentKey

@[reducible] def NodeKind.Wrapper : NodeKind → Type
  | file => FileNode
  | classLike => ClassNode
  | function => FunctionNode
  | property => PropertyNode
  | getter => GetterNode
  | setter => SetterNode
  | valueParameter => ValueParameterNode
  | typeParameter => TypeParameterNode
  | typeReference => TypeReference
  | classifierReference => ClassifierReference
  | callableReference => CallableReference
  | dynamicReference => DynamicReference
  | annotationUse => AnnotationNode
  | valueArgument => ArgumentNode

@[reducible] def Kind.Key : Kind → Type
  | node kind => kind.Key
  | resolvedType => TypeKey

@[reducible] def Kind.Wrapper : Kind → Type
  | node kind => kind.Wrapper
  | resolvedType => ResolvedType

instance Kind.codedKey : (kind : Kind) → Coded kind.Key
  | .node .file => inferInstanceAs (Coded FileKey)
  | .node .classLike => inferInstanceAs (Coded SymbolKey)
  | .node .function => inferInstanceAs (Coded SymbolKey)
  | .node .property => inferInstanceAs (Coded SymbolKey)
  | .node .getter => inferInstanceAs (Coded AccessorKey)
  | .node .setter => inferInstanceAs (Coded AccessorKey)
  | .node .valueParameter => inferInstanceAs (Coded ValueParameterKey)
  | .node .typeParameter => inferInstanceAs (Coded SymbolKey)
  | .node .typeReference => inferInstanceAs (Coded TypeReferenceKey)
  | .node .classifierReference => inferInstanceAs (Coded ElementKey)
  | .node .callableReference => inferInstanceAs (Coded ElementKey)
  | .node .dynamicReference => inferInstanceAs (Coded TypeReferenceId)
  | .node .annotationUse => inferInstanceAs (Coded AnnotationUseKey)
  | .node .valueArgument => inferInstanceAs (Coded ArgumentKey)
  | .resolvedType => inferInstanceAs (Coded TypeKey)

/-- The handle that a wrapper carries. -/
def Kind.idOf : (kind : Kind) → kind.Wrapper → Handle kind
  | .node .file, w => FileNode.id w
  | .node .classLike, w => ClassNode.id w
  | .node .function, w => FunctionNode.id w
  | .node .property, w => PropertyNode.id w
  | .node .getter, w => GetterNode.id w
  | .node .setter, w => SetterNode.id w
  | .node .valueParameter, w => ValueParameterNode.id w
  | .node .typeParameter, w => TypeParameterNode.id w
  | .node .typeReference, w => TypeReference.id w
  | .node .classifierReference, w => ClassifierReference.id w
  | .node .callableReference, w => CallableReference.id w
  | .node .dynamicReference, w => DynamicReference.id w
  | .node .annotationUse, w => AnnotationNode.id w
  | .node .valueArgument, w => ArgumentNode.id w
  | .resolvedType, w => ResolvedType.id w

end SymbolGraph
