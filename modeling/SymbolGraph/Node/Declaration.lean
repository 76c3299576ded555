import SymbolGraph.Node.Wrapper

/-!
# Declarations

The named nodes of the graph.
-/

namespace SymbolGraph

/-- Any declaration. -/
inductive Declaration
  | classLike (node : ClassNode)
  | function (node : FunctionNode)
  | property (node : PropertyNode)
  | typeParameter (node : TypeParameterNode)

/-! ## Simple names -/

/-- Anonymous objects have no name of their own. -/
def ClassNode.simpleName (c : ClassNode) : String := c.symbol.name.getD "<no name provided>"

/-- Constructors all have one name. -/
def FunctionNode.simpleName (f : FunctionNode) : String :=
  if f.details.isConstructor then "<init>" else f.symbol.displayName

def PropertyNode.simpleName (p : PropertyNode) : String := p.symbol.displayName

def TypeParameterNode.simpleName (p : TypeParameterNode) : String := p.symbol.displayName

namespace Declaration

def wrapped : Declaration → WrappedSymbol
  | classLike d => d.toWrappedSymbol
  | function d => d.toWrappedSymbol
  | property d => d.toWrappedSymbol
  | typeParameter d => d.toWrappedSymbol

def node : Declaration → NodeId
  | classLike d => d.id.node
  | function d => d.id.node
  | property d => d.id.node
  | typeParameter d => d.id.node

def simpleName : Declaration → String
  | classLike d => d.simpleName
  | function d => d.simpleName
  | property d => d.simpleName
  | typeParameter d => d.simpleName

def key (d : Declaration) : SymbolKey := d.wrapped.key

def symbol (d : Declaration) : SymbolRecord := d.wrapped.symbol

def packageName (d : Declaration) : String := d.symbol.package

def origin (d : Declaration) : Origin := d.symbol.origin

/-- Two declarations are the same if they are the same node. -/
def isSame (d e : Declaration) : Bool := d.node == e.node

end Declaration

/-- A simple name under a package; the nameless package adds nothing. -/
def packageQualified (package simpleName : String) : String :=
  if package = "" then simpleName else package ++ "." ++ simpleName

end SymbolGraph
