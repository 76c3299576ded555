import SymbolGraph.Graph.Survey
import SymbolGraph.Oracle.Disturbed
import SymbolGraph.Oracle.Draft
import SymbolGraph.Processing.ConstNames
import SymbolGraph.Processing.DocLines
import SymbolGraph.Report.Node
import SymbolGraph.Report.Session
import SymbolGraph.Proofs.Identity.Growth
import SymbolGraph.Proofs.Identity.Sections
import SymbolGraph.Proofs.Session.Primitives
import SymbolGraph.Proofs.Session.Regular
import SymbolGraph.Proofs.Graph.Regular
import SymbolGraph.Proofs.Session.Operation
import SymbolGraph.Proofs.Session.Identity
import SymbolGraph.Proofs.Session.Fact
import SymbolGraph.Proofs.Session.Sustains
import SymbolGraph.Proofs.Oracle.Struck
import SymbolGraph.Proofs.Oracle.Wiring
import SymbolGraph.Proofs.Oracle.ClassTypes
import SymbolGraph.Proofs.Text.ByteOrder
import SymbolGraph.Proofs.Session.Memo
import SymbolGraph.Proofs.Session.Retry
import SymbolGraph.Proofs.Meaning.Entity
import SymbolGraph.Proofs.Meaning.World
import SymbolGraph.Proofs.Meaning.Graph
import SymbolGraph.Proofs.Meaning.View
import SymbolGraph.Proofs.Meaning.Field
import SymbolGraph.Proofs.Meaning.Sound
import SymbolGraph.Proofs.Meaning.Answers
import SymbolGraph.Proofs.Meaning.Wrapping
import SymbolGraph.Proofs.Meaning.Containment
import SymbolGraph.Proofs.Meaning.Annotations
import SymbolGraph.Proofs.Meaning.Arguments
import SymbolGraph.Proofs.Meaning.Modifiers
import SymbolGraph.Proofs.Meaning.Signature
import SymbolGraph.Proofs.Meaning.Types
import SymbolGraph.Proofs.Meaning.Reading
import SymbolGraph.Proofs.Meaning.Operation
import SymbolGraph.Proofs.Meaning.History
import SymbolGraph.Proofs.Session.Success
import SymbolGraph.Proofs.Tidy.Wrapper
import SymbolGraph.Proofs.Tidy.Fact
import SymbolGraph.Proofs.Tidy.Yields
import SymbolGraph.Proofs.Tidy.Wrapping
import SymbolGraph.Proofs.Tidy.Containment
import SymbolGraph.Proofs.Tidy.Field
import SymbolGraph.Proofs.Tidy.Offspring
import SymbolGraph.Proofs.Tidy.Run
import SymbolGraph.Proofs.Tidy.Below
import SymbolGraph.Proofs.Tidy.Parent
import SymbolGraph.Proofs.Oracle.Chain
import SymbolGraph.Proofs.Oracle.ClassPath
import SymbolGraph.Proofs.Oracle.Finish
import SymbolGraph.Proofs.Tidy.Success
import SymbolGraph.Proofs.Tidy.QualifiedName
import SymbolGraph.Proofs.Tidy.Constructor
import SymbolGraph.Proofs.Tidy.ClassName
import SymbolGraph.Proofs.Walk.Traversal
import SymbolGraph.Proofs.Walk.Lasting
import SymbolGraph.Proofs.Walk.Preorder
import SymbolGraph.Proofs.Walk.Descent
import SymbolGraph.Proofs.Walk.Termination
import SymbolGraph.Proofs.Walk.Again
import SymbolGraph.Proofs.Walk.Forest
import SymbolGraph.Proofs.Tidy.Listing
import SymbolGraph.Proofs.Processing.Annotated
import SymbolGraph.Proofs.Walk.Once
import SymbolGraph.Proofs.Oracle.Closed
import SymbolGraph.Proofs.Meaning.Apt
import SymbolGraph.Proofs.Meaning.Total
import SymbolGraph.Proofs.Meaning.Children
import SymbolGraph.Proofs.Processing.Success
import SymbolGraph.Proofs.Processing.DocLines
import SymbolGraph.Proofs.Processing.ConstNames
import SymbolGraph.Proofs.Linked.Law
import SymbolGraph.Proofs.Linked.Wrapping
import SymbolGraph.Proofs.Linked.Field
import SymbolGraph.Proofs.Linked.Answer
import SymbolGraph.Proofs.Linked.Run
import SymbolGraph.Proofs.Linked.Held
import SymbolGraph.Proofs.Linked.Place
import SymbolGraph.Proofs.Linked.Same
import SymbolGraph.Proofs.Tidy.Frame
import SymbolGraph.Proofs.Tidy.ReturnType
import SymbolGraph.Proofs.Tidy.Arguments
import SymbolGraph.Proofs.Tidy.UseSite
import SymbolGraph.Proofs.Tidy.Defaults
import SymbolGraph.Proofs.Oracle.BoundChain
import SymbolGraph.Proofs.Tidy.Resolution
import SymbolGraph.Proofs.Text.LineIndex
import SymbolGraph.Proofs.Text.DocLine
import SymbolGraph.Proofs.Processing.NameOrder
import SymbolGraph.Proofs.Processing.FailedRound
import SymbolGraph.Proofs.Identity.Entries
import SymbolGraph.Proofs.Identity.Clear
