/-!
# Lines and locations

Where something is written: by its byte offset as a line and a column, and as it is shown to
a reader.
-/

namespace SymbolGraph

/-!
## Line index

Byte offsets of a text as lines and columns, both counted from zero. A line ends after a
line feed, after a carriage return and line feed together, and after a carriage return on
its own. Here the offsets are numbers without a bound. A program keeps them in words of 32
bits: `WordIndex` in `SymbolGraph.Text.LineSearch`.
-/

/-- A line and a column, both counted from zero. -/
structure LineCol where
  line : Nat
  col : Nat
deriving DecidableEq

/-- Where the lines of one text start, and how many bytes the text has. -/
structure LineIndex where
  starts : List Nat
  length : Nat
deriving DecidableEq

namespace LineIndex

/-- The offsets right after the line terminators of `bytes`, the first byte being at `here`. -/
def startsAfter (here : Nat) : List UInt8 → List Nat
  | [] => []
  | byte :: rest =>
    let later := startsAfter (here + 1) rest
    -- A carriage return (13) right before a line feed (10) leaves the end of the line to the line feed.
    if byte = 10 ∨ (byte = 13 ∧ rest.head? ≠ some 10) then (here + 1) :: later else later

def ofBytes (bytes : List UInt8) : LineIndex where
  starts := 0 :: startsAfter 0 bytes
  length := bytes.length

/-- The index of a text, by its UTF-8 bytes. -/
def ofText (text : String) : LineIndex := ofBytes text.toUTF8.toList

def lineCount (index : LineIndex) : Nat := index.starts.length

/-- The line of an offset is the last one that starts at or before it. Offsets past the end of
the text have none. -/
def lineCol (index : LineIndex) (offset : Nat) : Option LineCol :=
  if index.length < offset then none
  else
    -- The first line starts at zero, so at least that start is reached.
    let reached := index.starts.takeWhile (· ≤ offset)
    some ⟨reached.length - 1, offset - reached.getLast?.getD 0⟩

end LineIndex

/-!
## Locations

A path with a line and a column counted from one, or the statement that there is no such place.
-/

/-- A place in a file, or the absence of one. Absence is an ordinary value and never an error. -/
inductive Location
  | file (path : String) (line column : Nat)
  | absent
deriving DecidableEq

namespace Location

/-- The place at a line and column counted from zero. -/
def ofLineCol (path : String) (place : LineCol) : Location :=
  .file path (place.line + 1) (place.col + 1)

def isAbsent : Location → Bool
  | .file .. => false
  | .absent => true

def path? : Location → Option String
  | .file path .. => some path
  | .absent => none

def line? : Location → Option Nat
  | .file _ line _ => some line
  | .absent => none

def text : Location → String
  | .file path line column => s!"{path}:{line}:{column}"
  | .absent => "<no location>"

end Location

end SymbolGraph
