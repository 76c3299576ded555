import SymbolGraph.Graph.Visitor

/-!
# Processors

A processor is a piece of work on the graph of a session that keeps a state of its own from
round to round. A round starts at one of the entry points of the graph.
-/

namespace SymbolGraph

variable {σ α π : Type}

/-!
## Entry points

Where to start in the graph of a session: at the files in scope, at a package, at a class by
its name, or at the declarations that bear an annotation.
-/

namespace Query

/-- The files in scope, in the order of the front end. -/
def newFiles : Query σ (List FileNode) := do
  (← ask (·.newFiles)).mapM file

/-- The keys of the top-level declarations of a package. -/
def packageKeys (package : String) : Query σ (List SymbolKey) := ask (·.declarationsInPackage package)

/-- The class of a qualified name. -/
def classByName (name : String) : Query σ (Option ClassNode) := do
  match ← ask (·.classByName name) with
  | some key => return some (← classLike key)
  | none => return none

/-- Collects the declarations that bear an annotation of this name. -/
def annotatedCollector (name : String) : Visitor σ (List Declaration) Unit where
  other _ := return
  declaration d := do
    let annotations ← Visit.ofQuery d.annotations
    if annotations.any (·.qualifiedName == some name) then Visit.change (· ++ [d])

/-- Walks the files in scope in turn, at most `steps` nodes of each; false if that is not enough for
one of them. -/
def walkFiles {δ : Type} (v : Visitor σ δ Unit) (steps : Nat) : List FileNode → Visit σ δ Bool
  | [] => return true
  | file :: files => do
    match ← v.walk steps [file.id.node] with
    | [] => walkFiles v steps files
    | _ => return false

/-- The declarations in the files in scope that bear an annotation of this name, parents first. There
is no answer if a file has more than `steps` nodes. -/
def annotatedDeclarations (steps : Nat) (name : String) : Query σ (Option (List Declaration)) := do
  let files ← newFiles
  match ← (walkFiles (annotatedCollector name) steps files).run [] with
  | (.ok true, found) => return some found
  | (.ok false, _) => return none
  | (.error e, _) => throw e

/-- Runs a query on every file in scope. The results are in the order of the files. -/
def mapFiles (f : FileNode → Query σ α) : Query σ (List α) := do
  (← newFiles).mapM f

end Query

/-! ## Rounds -/

structure Processor (σ π : Type) where
  /-- One round. It answers the declarations that have to wait for another round. -/
  process : Visit σ π (List Declaration)
  /-- What is done after a round that went well. -/
  finish : π → π := id
  /-- What is done after a round that failed. -/
  onError : π → π := id

/-- Runs one round and what comes after it. -/
def Processor.run (p : Processor σ π) : Visit σ π (List Declaration) := fun session s =>
  match p.process session s with
  | .ok deferred (state, s') => .ok deferred (p.finish state, s')
  | .error e (state, s') => .error e (p.onError state, s')

/-- Texts in the order of their bytes. -/
def sortTexts (texts : List String) : List String := texts.mergeSort (· ≤ ·)

end SymbolGraph
