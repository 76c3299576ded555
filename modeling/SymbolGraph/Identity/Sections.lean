import Mathlib.Logic.Function.Basic
import SymbolGraph.Identity.Cache

/-!
# Requests in sections

Many callers may ask one cache for wrappers at the same time. A request locks the cache at most
twice: for reading, to look up its key, and only if nothing is found once more for writing, to
create the wrapper. Between its two sections other requests may take any number of theirs, so the
second section begins with another look. Slots are numbered in 32 bits.
-/

namespace SymbolGraph

/-- What a caller asks for: the key, and what makes the wrapper if there is none yet. -/
structure Request (κ ω : Type) where
  key : κ
  factory : UInt32 → ω

/-- How far a request has got. -/
inductive Progress (ω : Type)
  | waiting
  /-- Nothing was found in the first section. -/
  | missed
  | served (wrapper : ω)

/-- A cache, and the requests that are made of it. -/
structure Contest (κ ω : Type) [Ord κ] (n : Nat) where
  cache : IdentityCache κ ω
  progress : Fin n → Progress ω
  /-- The requests whose factory ran, the latest first. -/
  created : List (Fin n)

namespace Contest

variable {κ ω : Type} [Ord κ] {n : Nat}

/-- All requests are still to be made. -/
def start (cache : IdentityCache κ ω) : Contest κ ω n :=
  { cache, progress := fun _ => .waiting, created := [] }

def proceed (s : Contest κ ω n) (i : Fin n) (progress : Progress ω) : Contest κ ω n :=
  { s with progress := Function.update s.progress i progress }

/-- The section under the lock for reading. -/
def probe (requests : Fin n → Request κ ω) (s : Contest κ ω n) (i : Fin n) : Contest κ ω n :=
  match s.cache.lookup (requests i).key with
  | some found => s.proceed i (.served found)
  | none => s.proceed i .missed

/-- The section under the lock for writing. -/
def insert (requests : Fin n → Request κ ω) (s : Contest κ ω n) (i : Fin n) : Contest κ ω n :=
  match s.cache.lookup (requests i).key with
  -- Another request came in between.
  | some found => s.proceed i (.served found)
  | none =>
    let number := UInt32.ofNat s.cache.size
    let wrapper := (requests i).factory number
    { cache :=
        { index := s.cache.index.insert (requests i).key number.toNat
          slots := s.cache.slots.push wrapper }
      progress := Function.update s.progress i (.served wrapper)
      created := i :: s.created }

/-- The next section of a request, if there is one. -/
def turn (requests : Fin n → Request κ ω) (s : Contest κ ω n) (i : Fin n) : Contest κ ω n :=
  match s.progress i with
  | .waiting => s.probe requests i
  | .missed => s.insert requests i
  | .served _ => s

/-- The requests take their sections in the order of a schedule. -/
def run (requests : Fin n → Request κ ω) (s : Contest κ ω n) (schedule : List (Fin n)) :
    Contest κ ω n :=
  schedule.foldl (turn requests) s

end Contest

end SymbolGraph
