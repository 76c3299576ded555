import SymbolGraph.Decimal.Shortest

/-!
# Constants

The values an expression can have at compile time, and how they are written.
-/

namespace SymbolGraph

/-- The value of a constant expression. Floating-point values are kept as their bits, so that
equal constants are equal bit for bit. -/
inductive Constant
  | null
  | boolean (value : Bool)
  | char (value : Char)
  | byte (value : Int8)
  | short (value : Int16)
  | int (value : Int32)
  | long (value : Int64)
  | float (bits : UInt32)
  | double (bits : UInt64)
  | string (value : String)
deriving DecidableEq

namespace Constant

/-- Characters stand between single quotes and strings between double ones, nothing in them
being escaped; longs end in `L` and single-precision numbers in `f`. -/
def text : Constant → String
  | null => "null"
  | boolean value => if value then "true" else "false"
  | char value => s!"'{value}'"
  | byte value => toString value.toInt
  | short value => toString value.toInt
  | int value => toString value.toInt
  | long value => toString value.toInt ++ "L"
  | float bits => BinaryFormat.single.text bits.toNat ++ "f"
  | double bits => BinaryFormat.double.text bits.toNat
  | string value => "\"" ++ value ++ "\""

end Constant

end SymbolGraph
