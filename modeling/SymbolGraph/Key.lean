import Std.Data.TreeMap

/-!
# Keys

A front end names each thing it knows by a key: the position of the thing in the front
end's own list of that sort. A key is a number of 32 bits in memory and a number without a
bound here, so fewer than 2 ^ 32 things of each sort are assumed. Keys, and everything built from them, are *coded* as lists
of numbers. Comparing codes is a lawful order, so a coded type can index a search tree,
and two values with one code are one value.
-/

namespace SymbolGraph

/-- Values told apart by a list of numbers. -/
class Coded (α : Type) where
  code : α → List Nat
  code_injective : ∀ {a b : α}, code a = code b → a = b

namespace Coded

variable {α β : Type}

/-- Coded values are ordered by their codes, earlier numbers first. -/
instance [Coded α] : Ord α := ⟨fun a b => compare (code a) (code b)⟩

theorem compare_def [Coded α] (a b : α) : compare a b = compare (code a) (code b) := rfl

instance [Coded α] : Std.TransOrd α where
  eq_swap := Std.OrientedOrd.eq_swap (α := List Nat)
  isLE_trans := Std.TransOrd.isLE_trans (α := List Nat)

instance [Coded α] : Std.LawfulEqOrd α where
  compare_self := Std.ReflOrd.compare_self (α := List Nat)
  eq_of_compare h := code_injective (Std.LawfulEqOrd.eq_of_compare (α := List Nat) h)

/-- An absent value comes before every present one. -/
instance [Coded α] : Coded (Option α) where
  code
    | none => [0]
    | some a => 1 :: code a
  code_injective {a b} h := by
    cases a with
    | none => cases b <;> simp at h ⊢
    | some a =>
      cases b with
      | none => simp at h
      | some b => exact congrArg some (code_injective (List.cons.inj h).2)

/-- A whole number is coded by its sign and its size. -/
def ofInt (i : Int) : List Nat := [if i < 0 then 1 else 0, i.natAbs]

theorem ofInt_injective {i j : Int} (h : ofInt i = ofInt j) : i = j := by
  simp only [ofInt, List.cons.injEq, and_true] at h
  obtain ⟨sign, size⟩ := h
  split at sign <;> split at sign <;> omega

end Coded

/-- Identity of a symbol. -/
structure SymbolKey where
  index : Nat
deriving DecidableEq

/-- Identity of a type. -/
structure TypeKey where
  index : Nat
deriving DecidableEq

/-- Identity of one application of an annotation. -/
structure AnnotationKey where
  index : Nat
deriving DecidableEq

/-- Identity of a source file. -/
structure FileKey where
  index : Nat
deriving DecidableEq

/-- Identity of an expression that may be a constant. -/
structure ExprKey where
  index : Nat
deriving DecidableEq

instance : Coded SymbolKey := ⟨fun k => [k.index], by rintro ⟨a⟩ ⟨b⟩ h; simpa using h⟩
instance : Coded TypeKey := ⟨fun k => [k.index], by rintro ⟨a⟩ ⟨b⟩ h; simpa using h⟩
instance : Coded AnnotationKey := ⟨fun k => [k.index], by rintro ⟨a⟩ ⟨b⟩ h; simpa using h⟩
instance : Coded FileKey := ⟨fun k => [k.index], by rintro ⟨a⟩ ⟨b⟩ h; simpa using h⟩
instance : Coded ExprKey := ⟨fun k => [k.index], by rintro ⟨a⟩ ⟨b⟩ h; simpa using h⟩

/-! ## Keys as text -/

def SymbolKey.text (k : SymbolKey) : String := s!"SymbolKey({k.index})"
def TypeKey.text (k : TypeKey) : String := s!"TypeKey({k.index})"
def AnnotationKey.text (k : AnnotationKey) : String := s!"AnnotationKey({k.index})"
def FileKey.text (k : FileKey) : String := s!"FileKey({k.index})"

end SymbolGraph
