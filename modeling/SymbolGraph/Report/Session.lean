import SymbolGraph.Report.Datum
import SymbolGraph.Session.Query
import SymbolGraph.Text.Quoted

/-!
# Reports of sessions
-/

namespace SymbolGraph

open Datum

/-- The settings of a session, for messages. -/
def Config.text (config : Config) : String :=
  let parallelism := match config.parallelism with
    | none => "None"
    | some n => s!"Some({n})"
  "SessionConfig \x7b module_name: " ++ quoted config.moduleName
    ++ s!", interop_return_type_workaround: {config.interopReturnTypeWorkaround}"
    ++ s!", parallelism: {parallelism} \x7d"

/-- A session, for messages. -/
def Session.text {σ : Type} (session : Session σ) (s : SessionState σ) : String :=
  s!"Session \x7b config: {session.config.text}, caches: {s.caches.text}, .. \x7d"

def Config.report (config : Config) : Datum := .fields [
  ("module_name", config.moduleName),
  ("interop_return_type_workaround", config.interopReturnTypeWorkaround),
  ("parallelism", opt (fun n : Nat => n) config.parallelism)]

def CacheStats.report (stats : CacheStats) : Datum := .fields [
  ("counts", each (fun (kind, n) => .list [kind, n]) stats.counts),
  ("total", stats.total),
  ("display", stats.text)]

end SymbolGraph
