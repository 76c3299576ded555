import SymbolGraph.Graph.Documentation
import SymbolGraph.Graph.Nested
import SymbolGraph.Processing.Processor

/-!
# Documentation lines

One line for each class, function and property in the files in scope, in byte order. Lines
are added to the results as they are found, in a round that fails as well. A line has the name
and the comment. Every line break in the comment, be it a line feed, a carriage return, or both
together, is written as a backslash and an `n`.
-/

namespace SymbolGraph

variable {σ : Type}

namespace DocLine

def escapeBreaks : List Char → List Char
  | [] => []
  | '\r' :: '\n' :: rest => '\\' :: 'n' :: escapeBreaks rest
  | '\r' :: rest => '\\' :: 'n' :: escapeBreaks rest
  | '\n' :: rest => '\\' :: 'n' :: escapeBreaks rest
  | c :: rest => c :: escapeBreaks rest

/-- A missing comment is written as `null`. -/
def render (name : String) (doc : Option String) : String :=
  match doc with
  | some doc => name ++ ": " ++ String.ofList (escapeBreaks doc.toList)
  | none => name ++ ": null"

/-- Adds the line of a declaration; type parameters have none. -/
def enter (d : Declaration) : Visit σ (List String) Unit := do
  match d with
  | .typeParameter _ => return
  | d =>
    let doc ← Visit.ofQuery d.docString
    Visit.change (· ++ [render d.simpleName doc])

end DocLine

/-- Collects the documentation lines. -/
def docLines : Processor σ (List String) where
  process := do
    let files ← Visit.ofQuery Query.newFiles
    files.forM fun file => Visit.nested DocLine.enter file.file.declarations
    return []
  finish := sortTexts

end SymbolGraph
