import SymbolGraph.Record.Symbol

/-!
# Origins

Where a node of the graph comes from.
-/

namespace SymbolGraph

inductive Origin
  /-- Written in the native source language. -/
  | source
  /-- Compiled native input. -/
  | binary
  /-- Written in the platform language. -/
  | interop
  /-- Compiled platform input. -/
  | interopBinary
  /-- Made up by the compiler. -/
  | synthetic
deriving DecidableEq

namespace Origin

def isInterop : Origin → Bool
  | interop | interopBinary => true
  | source | binary | synthetic => false

end Origin

/-- The origin of a symbol. Platform symbols count as written only if their platform syntax is at
hand; without it they come from class files. -/
def SymbolRecord.origin (symbol : SymbolRecord) : Origin :=
  match symbol.provenance with
  | .source => .source
  | .library => .binary
  | .interopSource => if symbol.source.any (·.form == .interop) then .interop else .interopBinary
  | .interopLibrary => .interopBinary
  | .sourceMemberGenerated | .plugin | .delegated | .substitutionOverride => .synthetic

/-- The origin of an accessor. One of native origin without syntax was made by the compiler. -/
def SymbolRecord.accessorOrigin (symbol : SymbolRecord) : Origin :=
  if symbol.origin = .source ∧ symbol.source.isNone then .synthetic else symbol.origin

end SymbolGraph
