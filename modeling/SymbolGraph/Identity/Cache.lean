import Std.Data.TreeMap

/-!
# Identity caches

One wrapper for each distinct key. A cache keeps its wrappers in slots, in the order in
which they were created, and an index from keys to slots. The number of the slot is the
wrapper's handle: asking again with an equal key hands back the same wrapper.
-/

namespace SymbolGraph

structure IdentityCache (κ ω : Type) [Ord κ] where
  index : Std.TreeMap κ Nat := {}
  slots : Array ω := #[]

namespace IdentityCache

variable {κ ω : Type} [Ord κ]

def empty : IdentityCache κ ω := {}

/-- The wrapper created under a key, if any. -/
def lookup (cache : IdentityCache κ ω) (key : κ) : Option ω :=
  cache.index[key]?.bind (cache.slots[·]?)

/-- The wrapper in a slot, if any. -/
def get (cache : IdentityCache κ ω) (slot : Nat) : Option ω := cache.slots[slot]?

/-- The wrapper created under a key. The first request for a key creates it, told its slot. -/
def getOrCreate (cache : IdentityCache κ ω) (key : κ) (factory : Nat → ω) :
    ω × IdentityCache κ ω :=
  match cache.lookup key with
  | some found => (found, cache)
  | none =>
    let slot := cache.slots.size
    let wrapper := factory slot
    (wrapper, { index := cache.index.insert key slot, slots := cache.slots.push wrapper })

def size (cache : IdentityCache κ ω) : Nat := cache.slots.size

def isEmpty (cache : IdentityCache κ ω) : Bool := cache.size == 0

/-- Drops every wrapper and starts counting slots again. -/
def clear (_ : IdentityCache κ ω) : IdentityCache κ ω := empty

/-- A cache for messages. -/
def text (cache : IdentityCache κ ω) : String :=
  "IdentityCache \x7b len: " ++ toString cache.size ++ " \x7d"

end IdentityCache

end SymbolGraph
