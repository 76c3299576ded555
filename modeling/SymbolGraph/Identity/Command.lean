import SymbolGraph.Identity.Sections

/-!
# One command after the other

All that a caller can ask of a cache, as commands with their replies. A request for a wrapper takes
both its sections before the next command comes. Handles are words, and a cache that was cleared
counts its slots from zero again.
-/

namespace SymbolGraph

namespace IdentityCache

inductive Command (κ ω : Type)
  /-- Asks for the wrapper under a key, which is created if there is none. -/
  | request (request : Request κ ω)
  | lookup (key : κ)
  | get (handle : UInt32)
  | size
  | clear

inductive Reply (ω : Type)
  /-- How far a request got, and how often its factory ran. -/
  | request (progress : Progress ω) (made : Nat)
  | found (wrapper : Option ω)
  | size (size : Nat)
  | done

variable {κ ω : Type} [Ord κ]

/-- A request that no other request comes between. -/
def serve (cache : IdentityCache κ ω) (request : Request κ ω) : Contest κ ω 1 :=
  (Contest.start cache).run (fun _ => request) [0, 0]

/-- The reply to a command, and the cache that it leaves. -/
def perform (cache : IdentityCache κ ω) : Command κ ω → Reply ω × IdentityCache κ ω
  | .request request =>
    let served := cache.serve request
    (.request (served.progress 0) served.created.length, served.cache)
  | .lookup key => (.found (cache.lookup key), cache)
  | .get handle => (.found (cache.get handle.toNat), cache)
  | .size => (.size cache.size, cache)
  | .clear => (.done, cache.clear)

/-- What commands make of a new cache. -/
def after (past : List (Command κ ω)) : IdentityCache κ ω :=
  past.foldl (fun cache command => (cache.perform command).2) empty

end IdentityCache

end SymbolGraph
