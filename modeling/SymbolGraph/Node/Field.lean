import Std.Data.DTreeMap
import SymbolGraph.Modifier
import SymbolGraph.Node.Declaration

/-!
# Fields

What is found out about a wrapper on demand, and found out once. Every such field has a
cell: the wrapper, and which field of it. A memo holds the values of the cells that have
been filled so far.
-/

namespace SymbolGraph

/-- The structure behind a type reference. -/
inductive ReferenceElement
  | classifier (node : ClassifierReference)
  | callable (node : CallableReference)
  | dynamic (node : DynamicReference)

def ReferenceElement.node : ReferenceElement → NodeId
  | classifier e => e.id.node
  | callable e => e.id.node
  | dynamic e => e.id.node

inductive Field
  | parent
  | qualifiedName
  | annotations
  | modifiers
  | docString
  | receiverType
  | returnType
  | valueParameters
  | typeParameters
  | superTypes
  | bounds
  | type
  | getter
  | setter
  | parameter
  | element
  | typeArguments
  | functionParameters
  | arguments
  | annotationType
  | declaration
deriving DecidableEq

namespace Field

@[reducible] def Value : Field → Type
  | parent => Option NodeId
  | qualifiedName => Option String
  | annotations => List AnnotationNode
  | modifiers => ModifierSet
  | docString => Option String
  | receiverType => Option TypeReference
  | returnType => TypeReference
  | valueParameters => List ValueParameterNode
  | typeParameters => List TypeParameterNode
  | superTypes | bounds | functionParameters => List TypeReference
  | type => TypeReference
  | getter => Option GetterNode
  | setter => Option SetterNode
  | parameter => ValueParameterNode
  | element => Option ReferenceElement
  | typeArguments => List (TypeArgument TypeReference)
  | arguments => List ArgumentNode
  | annotationType => Option TypeReference
  | declaration => Declaration

def rank : Field → Nat
  | parent => 0
  | qualifiedName => 1
  | annotations => 2
  | modifiers => 3
  | docString => 4
  | receiverType => 5
  | returnType => 6
  | valueParameters => 7
  | typeParameters => 8
  | superTypes => 9
  | bounds => 10
  | type => 11
  | getter => 12
  | setter => 13
  | parameter => 14
  | element => 15
  | typeArguments => 16
  | functionParameters => 17
  | arguments => 18
  | annotationType => 19
  | declaration => 20

theorem rank_injective {a b : Field} (h : a.rank = b.rank) : a = b := by
  cases a <;> cases b <;> first | rfl | exact absurd h (by decide)

end Field

def Kind.rank : Kind → Nat
  | node kind => kind.rank
  | resolvedType => 14

theorem Kind.rank_injective {a b : Kind} (h : a.rank = b.rank) : a = b := by
  cases a <;> cases b
  · exact congrArg node (NodeKind.rank_injective h)
  · rename_i kind
    cases kind <;> exact absurd h (by decide)
  · rename_i kind
    cases kind <;> exact absurd h (by decide)
  · rfl

/-- One field of one wrapper. -/
structure Cell where
  kind : Kind
  slot : Nat
  field : Field
deriving DecidableEq

namespace Cell

@[reducible] def Value (cell : Cell) : Type := cell.field.Value

instance : Coded Cell where
  code cell := [cell.kind.rank, cell.slot, cell.field.rank]
  code_injective := by
    rintro ⟨k, s, f⟩ ⟨k', s', f'⟩ h
    simp only [List.cons.injEq, and_true] at h
    rw [Kind.rank_injective h.1, h.2.1, Field.rank_injective h.2.2]

end Cell

/-- The cell of a field of the wrapper with this handle. -/
abbrev Handle.cell {kind : Kind} (h : Handle kind) (field : Field) : Cell := ⟨kind, h.index, field⟩

/-- The cells filled so far. -/
abbrev Memo := Std.DTreeMap Cell Cell.Value

end SymbolGraph
