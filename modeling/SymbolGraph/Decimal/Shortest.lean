/-!
# Shortest decimals

The bits of a binary floating-point number as the shortest positional decimal that reads
back as the same number. A number stands for the interval of reals that round to it; among
the decimals in that interval the shortest one is the one on the coarsest decimal grid, and
of two on one grid the nearer is taken, the upper one if both are equally near. All
arithmetic is on natural numbers and exact.
-/

namespace SymbolGraph

/-- How many bits of a floating-point format hold the fraction and how many the exponent. -/
structure BinaryFormat where
  fractionBits : Nat
  exponentBits : Nat

namespace BinaryFormat

def single : BinaryFormat := ⟨23, 8⟩
def double : BinaryFormat := ⟨52, 11⟩

end BinaryFormat

/-- What the bits of a number mean. A finite number is `mantissa * 2 ^ exponent`; `narrow` says
that its neighbour below is half as far away as the one above. -/
inductive Decoded
  | notANumber
  | infinite (negative : Bool)
  | finite (negative : Bool) (mantissa : Nat) (exponent : Int) (narrow : Bool)
deriving DecidableEq

def BinaryFormat.decode (format : BinaryFormat) (bits : Nat) : Decoded :=
  let fractions := Nat.pow 2 format.fractionBits
  let fields := Nat.pow 2 format.exponentBits
  let fraction := bits % fractions
  let field := bits / fractions % fields
  let negative := bits / (fractions * fields) % 2 == 1
  let lowest : Int := 2 - (fields / 2 : Nat) - format.fractionBits
  -- The highest exponent means no finite number, and the lowest one a number without its leading bit.
  if field = fields - 1 then if fraction = 0 then .infinite negative else .notANumber
  else if field = 0 then .finite negative fraction lowest false
  else .finite negative (fraction + fractions) (lowest + (field - 1)) (fraction = 0 ∧ 1 < field)

namespace Decimal

/-- `base ^ exponent` as a quotient of two naturals. -/
def power (base : Nat) (exponent : Int) : Nat × Nat :=
  (Nat.pow base exponent.toNat, Nat.pow base (-exponent).toNat)

/-- How many decimal digits a number has; zero has none. -/
def digitCount (n : Nat) : Nat := if n = 0 then 0 else (Nat.toDigits 10 n).length

/-- The least `k` with `num / den < 10 ^ k`, for a positive quotient. -/
def scale (num den : Nat) : Int :=
  if den ≤ num then digitCount (num / den) else 1 - digitCount ((den - 1) / num)

/-- The reals that round to one number, in quarters of the distance to its neighbour above:
the ends and the number itself, and whether the ends belong to the interval. -/
structure Interval where
  low : Nat
  value : Nat
  high : Nat
  closed : Bool
  unit : Nat × Nat

namespace Interval

def ofFinite (mantissa : Nat) (exponent : Int) (narrow : Bool) : Interval where
  low := 4 * mantissa - (if narrow then 1 else 2)
  value := 4 * mantissa
  high := 4 * mantissa + 2
  closed := mantissa % 2 == 0
  unit := power 2 (exponent - 2)

/-- Whether `digits * 10 ^ place` lies in the interval. -/
def contains (i : Interval) (digits : Nat) (place : Int) : Bool :=
  let grid := power 10 place
  let decimal := digits * grid.1 * i.unit.2
  let low := i.low * i.unit.1 * grid.2
  let high := i.high * i.unit.1 * grid.2
  if i.closed then low ≤ decimal && decimal ≤ high else low < decimal && decimal < high

/-- The nearest multiple of `10 ^ place` in the interval, if there is one. Only the two
neighbours of the number on that grid can be it. -/
def onGrid (i : Interval) (place : Int) : Option Nat :=
  let grid := power 10 place
  let num := i.value * i.unit.1 * grid.2
  let den := i.unit.2 * grid.1
  let below := num / den
  match i.contains below place, i.contains (below + 1) place with
  | false, false => none
  | true, false => some below
  | false, true => some (below + 1)
  | true, true => some (if den ≤ 2 * (num % den) then below + 1 else below)

/-- The first hit on ever finer grids. -/
def search (i : Interval) : Nat → Int → Option (Nat × Int)
  | 0, _ => none
  | steps + 1, place =>
    match i.onGrid place with
    | some digits => some (digits, place)
    | none => i.search steps (place - 1)

/-- The digits and the place of the shortest decimal in the interval. Seventeen digits tell
every number of either format apart, so the search ends in time. -/
def shortest (i : Interval) : Nat × Int :=
  (i.search 20 (scale (i.value * i.unit.1) i.unit.2 - 1)).getD (0, 0)

end Interval

/-- `digits * 10 ^ place`, written without an exponent. -/
def positional (digits : Nat) (place : Int) : String :=
  let shown := (toString digits).toList
  if 0 ≤ place then String.ofList (shown ++ List.replicate place.toNat '0')
  else
    let places := (-place).toNat
    let padded := List.replicate (places + 1 - shown.length) '0' ++ shown
    let whole := padded.take (padded.length - places)
    String.ofList (whole ++ '.' :: padded.drop (padded.length - places))

/-- Drops final zeros, moving the place up. -/
def strip : Nat → Nat → Int → Nat × Int
  | 0, digits, place => (digits, place)
  | steps + 1, digits, place =>
    if digits % 10 = 0 then strip steps (digits / 10) (place + 1) else (digits, place)

end Decimal

/-- The text of a number given by its bits. -/
def BinaryFormat.text (format : BinaryFormat) (bits : Nat) : String :=
  match format.decode bits with
  | .notANumber => "NaN"
  | .infinite negative => if negative then "-inf" else "inf"
  | .finite negative mantissa exponent narrow =>
    let size :=
      if mantissa = 0 then "0"
      else
        let (digits, place) := (Decimal.Interval.ofFinite mantissa exponent narrow).shortest
        let (digits, place) := Decimal.strip 20 digits place
        Decimal.positional digits place
    if negative then "-" ++ size else size

/-! ## Samples -/

namespace BinaryFormat

example : double.text 0x3fb999999999999a = "0.1" := by decide +kernel
example : single.text 0x3dcccccd = "0.1" := by decide +kernel
example : double.text 0x3ff0000000000000 = "1" := by decide +kernel
example : double.text 0x8000000000000000 = "-0" := by decide +kernel
example : double.text 0x444b1ae4d6e2ef50 = "1000000000000000000000" := by decide +kernel
-- A quarter is as near to two tenths as to three.
example : double.text 0x4310000000000001 = "1125899906842624.3" := by decide +kernel

end BinaryFormat

end SymbolGraph
