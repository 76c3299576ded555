import SymbolGraph.Node.Declaration
import SymbolGraph.Oracle.Table

/-!
# Drafts of symbol tables

A draft collects files, symbols, types, annotations and expressions, wires symbols into
their owners, and is finished into a symbol table. Each thing added is named by its
position among the things of its sort.

Finishing derives, for every class whose containers are all named classes outside bodies,
the type of the class with its own type parameters and the type with stars, and lets every
function without a return type return `kotlin.Unit`.
-/

namespace SymbolGraph

structure Draft where
  files : Array FileRecord := #[]
  lineIndexes : Array LineIndex := #[]
  packages : Std.TreeMap String (List SymbolKey) := {}
  symbols : Array SymbolRecord := #[]
  types : Array TypeRecord := #[]
  annotations : Array AnnotationRecord := #[]
  expressions : Array (Option Constant) := #[]
  returnTypes : ReturnTypes := {}
  classifiers : Std.TreeMap TypeKey SymbolKey := {}

/-! ## Wiring -/

/-- The details of an owner after a member with these details was added under a key. Slots for a
single member are overwritten; members that the owner has no place for leave no trace. -/
def SymbolDetails.wire (owner member : SymbolDetails) (key : SymbolKey) : SymbolDetails :=
  match owner, member with
  | .classLike c, .typeParameter _ => .classLike { c with typeParameters := c.typeParameters ++ [key] }
  | .classLike c, .function f =>
    if f.isConstructor then .classLike { c with constructors := c.constructors ++ [key] }
    else .classLike { c with members := c.members ++ [key] }
  | .classLike c, _ => .classLike { c with members := c.members ++ [key] }
  | .function f, .valueParameter _ =>
    .function { f with valueParameters := f.valueParameters ++ [key] }
  | .function f, .typeParameter _ => .function { f with typeParameters := f.typeParameters ++ [key] }
  | .property p, .getter _ => .property { p with getter := some key }
  | .property p, .setter _ => .property { p with setter := some key }
  | .property p, .typeParameter _ => .property { p with typeParameters := p.typeParameters ++ [key] }
  | .setter _, .valueParameter _ => .setter (some key)
  | owner, _ => owner

/-- Where a member stands because of its owner, if the owner decides that. -/
def SymbolDetails.memberKind? (owner member : SymbolDetails) : Option SymbolKind :=
  match owner, member with
  | .classLike _, .typeParameter _ => none
  | .classLike _, _ => some .classMember
  | .function _, .valueParameter _ | .function _, .typeParameter _ => none
  | .function _, _ => some .inBody
  | _, _ => none

namespace Draft

def addFile (d : Draft) (path package text : String) : FileKey × Draft :=
  (⟨d.files.size⟩, { d with
    files := d.files.push { path, package }
    lineIndexes := d.lineIndexes.push (.ofText text) })

/-- Annotates a file; unknown files are passed over. -/
def annotateFile (d : Draft) (file : FileKey) (key : AnnotationKey) : Draft :=
  { d with files := d.files.modify file.index fun f =>
      { f with annotations := f.annotations ++ [key] } }

/-- Adds a symbol as it is. -/
def addSymbol (d : Draft) (symbol : SymbolRecord) : SymbolKey × Draft :=
  (⟨d.symbols.size⟩, { d with symbols := d.symbols.push symbol })

def addToPackage (d : Draft) (package : String) (key : SymbolKey) : Draft :=
  { d with packages := d.packages.insert package (d.packages.getD package [] ++ [key]) }

/-- Adds a top-level declaration of a source file, in the package of the file. -/
def addTopLevel (d : Draft) (file : FileKey) (symbol : SymbolRecord) : SymbolKey × Draft :=
  let package := (d.files[file.index]?.map FileRecord.package).getD ""
  let (key, d) := d.addSymbol
    { symbol with file := some file, container := none, kind := .topLevel, package }
  let d := { d with files := d.files.modify file.index fun f =>
    { f with declarations := f.declarations ++ [key] } }
  (key, d.addToPackage package key)

/-- Adds a top-level declaration of compiled input. -/
def addLibrary (d : Draft) (package : String) (symbol : SymbolRecord) : SymbolKey × Draft :=
  let (key, d) := d.addSymbol { symbol with file := none, container := none, kind := .topLevel, package }
  (key, d.addToPackage package key)

/-- Adds a symbol under an owner, in the file and package of the owner, and wires it into the owner.
A declaration added to a function is local to it, and is not listed in the body of the function.
Under an unknown owner the symbol is added as it is. -/
def addMember (d : Draft) (owner : SymbolKey) (symbol : SymbolRecord) : SymbolKey × Draft :=
  match d.symbols[owner.index]? with
  | none => d.addSymbol symbol
  | some ownerSymbol =>
    let key : SymbolKey := ⟨d.symbols.size⟩
    let symbol := { symbol with
      container := some owner
      file := ownerSymbol.file
      package := ownerSymbol.package
      kind := (ownerSymbol.details.memberKind? symbol.details).getD symbol.kind }
    let d := { d with symbols := d.symbols.modify owner.index fun o =>
      { o with details := o.details.wire symbol.details key } }
    d.addSymbol symbol

def addType (d : Draft) (type : TypeRecord) : TypeKey × Draft :=
  (⟨d.types.size⟩, { d with types := d.types.push type })

def addAnnotationUse (d : Draft) (record : AnnotationRecord) : AnnotationKey × Draft :=
  (⟨d.annotations.size⟩, { d with annotations := d.annotations.push record })

/-- Adds an expression, with its value if it is a constant. -/
def addExpression (d : Draft) (value : Option Constant) : ExprKey × Draft :=
  (⟨d.expressions.size⟩, { d with expressions := d.expressions.push value })

def setReturnType (d : Draft) (function : SymbolKey) (type : TypeKey) : Draft :=
  { d with returnTypes.known := d.returnTypes.known.insert function type }

/-- Lets a function return `raw` until its return type is settled, and `settled` from then on. -/
def deferReturnType (d : Draft) (function : SymbolKey) (raw settled : TypeKey) : Draft :=
  { d with returnTypes := {
      known := d.returnTypes.known.insert function raw
      deferred := d.returnTypes.deferred.insert function settled } }

/-- Lets a type refer to a symbol whatever its shape says. -/
def setClassifier (d : Draft) (type : TypeKey) (symbol : SymbolKey) : Draft :=
  { d with classifiers := d.classifiers.insert type symbol }

/-- Changes a symbol; unknown ones are passed over. -/
def modifySymbol (d : Draft) (key : SymbolKey) (change : SymbolRecord → SymbolRecord) : Draft :=
  { d with symbols := d.symbols.modify key.index change }

/-! ## Finishing -/

/-- The package of a class, and the names from the outermost class around it to the class itself.
There are none if something around it is no class, is unnamed, or is local to a body. No chain of
distinct containers is longer than the draft, so `steps` bounds only chains that lead into
themselves. -/
def classPath (symbols : Array SymbolRecord) : Nat → SymbolKey → Option (String × List String)
  | 0, _ => none
  | steps + 1, key =>
    symbols[key.index]?.bind fun symbol =>
      match symbol.details, symbol.name with
      | .classLike _, some name =>
        if symbol.kind = .inBody then none
        else match symbol.container with
          | none => some (symbol.package, [name])
          | some outer => (classPath symbols steps outer).map fun (package, names) =>
              (package, names ++ [name])
      | _, _ => none

/-- The qualified name of a class. -/
def qualifiedClassName (symbols : Array SymbolRecord) (key : SymbolKey) : Option String :=
  (classPath symbols (symbols.size + 1) key).map fun (package, names) =>
    packageQualified package (".".intercalate names)

/-- A short name with the texts of its arguments. -/
def renderWith (short : String) (arguments : List String) : String :=
  if arguments = [] then short else short ++ "<" ++ ", ".intercalate arguments ++ ">"

/-- What finishing adds to a draft. -/
structure Derived where
  types : Array TypeRecord
  classesByName : Std.TreeMap String SymbolKey := {}
  classTypes : Std.TreeMap SymbolKey ClassTypes := {}

namespace Derived

/-- Derives the types of one class: one type for each of its type parameters, then its own type,
then the type with stars. Of two classes with one name the later one is found by it. -/
def addClass (symbols : Array SymbolRecord) (d : Derived) (key : SymbolKey) (short : String)
    (parameters : List SymbolKey) (qualifiedName : String) : Derived :=
  let parameterTypes := parameters.map fun p =>
    ({ shape := .typeParameter p
       rendered := (symbols[p.index]?.map SymbolRecord.displayName).getD "" } : TypeRecord)
  let first := d.types.size
  let arguments := (List.range parameters.length).map fun i =>
    TypeArgument.projection .invariant (⟨first + i⟩ : TypeKey)
  let stars := parameters.map fun _ => TypeArgument.star
  let own : TypeKey := ⟨first + parameters.length⟩
  let star : TypeKey := ⟨first + parameters.length + 1⟩
  { types := d.types.appendList parameterTypes
      |>.push { shape := .classType qualifiedName arguments
                rendered := renderWith short (parameterTypes.map TypeRecord.rendered) }
      |>.push { shape := .classType qualifiedName stars
                rendered := renderWith short (stars.map fun _ => "*") }
    classesByName := d.classesByName.insert qualifiedName key
    classTypes := d.classTypes.insert key ⟨own, star⟩ }

/-- Derives the types of a symbol, if it is a class that has a qualified name. -/
def addSymbol (symbols : Array SymbolRecord) (d : Derived) (key : SymbolKey)
    (symbol : SymbolRecord) : Derived :=
  match symbol.details, qualifiedClassName symbols key with
  | .classLike c, some name => d.addClass symbols key symbol.displayName c.typeParameters name
  | _, _ => d

end Derived

/-- The functions whose return type was not recorded. -/
def withoutReturnType (d : Draft) : List SymbolKey :=
  (List.range d.symbols.size).filterMap fun i =>
    match d.symbols[i]?.map SymbolRecord.details with
    | some (.function _) => if d.returnTypes.known.contains ⟨i⟩ then none else some ⟨i⟩
    | _ => none

def finish (d : Draft) : SymbolTable :=
  let derived := (List.range d.symbols.size).foldl (fun derived i =>
    match d.symbols[i]? with
    | some symbol => Derived.addSymbol d.symbols derived ⟨i⟩ symbol
    | none => derived) { types := d.types }
  let missing := d.withoutReturnType
  let unit : TypeKey := ⟨derived.types.size⟩
  { files := d.files
    lineIndexes := d.lineIndexes
    packages := d.packages
    symbols := d.symbols
    types := if missing = [] then derived.types else derived.types.push (.ofClass "kotlin.Unit")
    annotations := d.annotations
    expressions := d.expressions
    classesByName := derived.classesByName
    classTypes := derived.classTypes
    classifiers := d.classifiers
    returnTypes := { d.returnTypes with
      known := missing.foldl (fun known f => known.insert f unit) d.returnTypes.known } }

end Draft

end SymbolGraph
