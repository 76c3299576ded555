import SymbolGraph.Graph.Modifiers
import SymbolGraph.Graph.Nested
import SymbolGraph.Processing.Processor

/-!
# Names of constant properties

The simple names of the `const` properties in the files in scope and in some packages
besides, in byte order. A property that is reached more than once is named once. Names are
added to the results only if the whole round went well.
-/

namespace SymbolGraph

variable {σ : Type}

/-- The properties met so far in a round, and the names of the constant ones. -/
structure ConstScan where
  seen : List NodeId := []
  names : List String := []

namespace ConstScan

/-- Notes a property, unless it was met before. -/
def enter : Declaration → Visit σ ConstScan Unit
  | .property p => do
    let scan := (← get).1
    if p.id.node ∈ scan.seen then return
    Visit.change fun scan => { scan with seen := p.id.node :: scan.seen }
    let modifiers ← Visit.ofQuery p.modifiers
    if .const ∈ modifiers then
      Visit.change fun scan => { scan with names := scan.names ++ [p.simpleName] }
  | _ => return

/-- Goes through the files in scope and then through the packages. -/
def scan (packages : List String) : Visit σ ConstScan Unit := do
  let files ← Visit.ofQuery Query.newFiles
  files.forM fun file => Visit.nested enter file.file.declarations
  packages.forM fun package => do
    let keys ← Visit.ofQuery (Query.packageKeys package)
    Visit.nested enter keys

end ConstScan

/-- Collects the names of constant properties. -/
def constNames (packages : List String) : Processor σ (List String) where
  process := do
    let (outcome, scan) ← Visit.ofQuery ((ConstScan.scan packages).run {})
    match outcome with
    | .ok () =>
      Visit.change (· ++ scan.names)
      return []
    | .error e => throw e
  finish := sortTexts

end SymbolGraph
