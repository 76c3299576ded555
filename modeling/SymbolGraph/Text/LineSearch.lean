import SymbolGraph.Text.LineIndex

/-!
# Lines by halving

A line index as it is kept in memory. Offsets are words of 32 bits, and the line of an offset is found by
halving the list of line starts. An entry behind the end of the list and a difference below zero do not
exist, so to ask for one of them has no result.
-/

namespace SymbolGraph

/-- Where a word stands in an ascending array, or which entry it would have to stand in front of. -/
inductive Slot
  | taken (i : Nat)
  | free (i : Nat)
deriving DecidableEq

/-- The last entry that is not above the word. If all entries are above it, that is the first one. -/
def Slot.floor : Slot → Nat
  | taken i => i
  | free i => i - 1

/-- Looks for a word among the entries from `low` on that are in front of `high`. -/
def seek (entries : Array UInt32) (wanted : UInt32) (low high : Nat) : Option Slot :=
  if low < high then
    let middle := (low + high) / 2
    match entries[middle]? with
    | none => none
    | some entry =>
      if entry = wanted then some (.taken middle)
      else if entry < wanted then seek entries wanted (middle + 1) high
      else seek entries wanted low middle
  else some (.free low)
termination_by high - low

/-- The difference of two words, if it is not below zero. -/
def difference? (a b : UInt32) : Option UInt32 :=
  if b ≤ a then some (a - b) else none

/-- A line index in words. -/
structure WordIndex where
  starts : Array UInt32
  length : UInt32

namespace WordIndex

/-- The words of an index. Offsets from 2 ^ 32 on lose their upper digits. -/
def ofIndex (index : LineIndex) : WordIndex where
  starts := (index.starts.map UInt32.ofNat).toArray
  length := UInt32.ofNat index.length

/-- The line and the column of an offset. There are none past the end of the text. -/
def lineCol? (index : WordIndex) (offset : UInt32) : Option (Option LineCol) :=
  if index.length < offset then some none
  else do
    let slot ← seek index.starts offset 0 index.starts.size
    let line := slot.floor
    let start ← index.starts[line]?
    let column ← difference? offset start
    return some ⟨(UInt32.ofNat line).toNat, column.toNat⟩

end WordIndex

end SymbolGraph
