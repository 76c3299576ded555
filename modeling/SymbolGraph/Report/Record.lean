import SymbolGraph.Record.Named
import SymbolGraph.Report.Datum

/-!
# Reports of records
-/

namespace SymbolGraph

open Datum Named

def Position.report (p : Position) : Datum := .list [p.file.index, p.offset]

def SourceForm.report : SourceForm → Datum
  | native => "Native"
  | interop => "Interop"
  | other form => .fields [("Other", form)]

def Statement.report : Statement → Datum
  | expression => "Expression"
  | declaration symbol => symbol.index

def Body.report : Body → Datum
  | expression => "Expression"
  | block statements => each Statement.report statements

def Source.report (s : Source) : Datum := .fields [
  ("position", s.position.report), ("form", s.form.report), ("keywords", texts s.keywords),
  ("doc", opt text s.doc), ("supertype_entries", each Position.report s.supertypeEntries),
  ("bound_entries", each Position.report s.boundEntries), ("body", opt Body.report s.body),
  ("default_value", opt (·.index) s.defaultValue)]

/-- A list of keys of symbols. -/
def Datum.symbols (keys : List SymbolKey) : Datum := each (·.index) keys

/-- A list of keys of types. -/
def Datum.types (keys : List TypeKey) : Datum := each (·.index) keys

/-- A list of keys of annotations. -/
def Datum.annotations (keys : List AnnotationKey) : Datum := each (·.index) keys

def SymbolDetails.report : SymbolDetails → Datum
  | classLike d => .fields [
      ("kind", opt (nameOf ·) d.kind), ("flags", texts (Flagged.names d.flags)),
      ("type_parameters", symbols d.typeParameters), ("supertypes", types d.supertypes),
      ("constructors", symbols d.constructors), ("members", symbols d.members)]
  | function d => .fields [
      ("is_constructor", d.isConstructor), ("receiver_type", opt (·.index) d.receiverType),
      ("type_parameters", symbols d.typeParameters),
      ("value_parameters", symbols d.valueParameters), ("flags", texts (Flagged.names d.flags)),
      ("is_interop_method", d.isInteropMethod)]
  | property d => .fields [
      ("ty", d.type.index), ("receiver_type", opt (·.index) d.receiverType),
      ("type_parameters", symbols d.typeParameters), ("getter", opt (·.index) d.getter),
      ("setter", opt (·.index) d.setter), ("flags", texts (Flagged.names d.flags))]
  | getter returnType => .fields [("return_type", returnType.index)]
  | setter parameter => .fields [("parameter", opt (·.index) parameter)]
  | valueParameter d => .fields [
      ("ty", d.type.index), ("flags", texts (Flagged.names d.flags))]
  | typeParameter d => .fields [
      ("bounds", types d.bounds), ("variance", nameOf d.variance), ("is_reified", d.isReified)]

def SymbolRecord.report (s : SymbolRecord) : Datum := .fields [
  ("name", opt text s.name), ("display_name", s.displayName), ("kind", nameOf s.kind),
  ("origin", nameOf s.provenance), ("container", opt (·.index) s.container),
  ("file", opt (·.index) s.file), ("package", s.package), ("visibility", nameOf s.visibility),
  ("modality", opt (nameOf ·) s.modality), ("annotations", Datum.annotations s.annotations),
  ("syntax", opt Source.report s.source), ("describe", s.details.describe),
  ("data", s.details.report)]

def TypeArgument.report : TypeArgument TypeKey → Datum
  | star => "*"
  | projection variance type => .list [nameOf variance, type.index]

def TypeShape.report (shape : TypeShape) : Datum :=
  let parts : List (String × Datum) := match shape with
    | classType className arguments =>
      [("class_name", className), ("arguments", each TypeArgument.report arguments)]
    | classError className => [("class_name", className)]
    | functional f => [
        ("class_name", f.className), ("arguments", each TypeArgument.report f.arguments),
        ("is_suspend", f.isSuspend), ("receiver", opt (·.index) f.receiver),
        ("parameters", types f.parameters), ("return_type", f.returnType.index)]
    | dynamic | error => []
    | flexible lower upper => [("lower", lower.index), ("upper", upper.index)]
    | typeParameter symbol => [("symbol", symbol.index)]
    | intersection parts => [("parts", types parts)]
    | definitelyNotNull inner => [("inner", inner.index)]
  .fields (("describe", shape.describe) :: parts)

def TypeRecord.report (t : TypeRecord) : Datum := .fields [
  ("shape", t.shape.report), ("nullable", t.nullable),
  ("annotations", Datum.annotations t.annotations), ("rendered", t.rendered)]

/-- A constant, with the name of its type. -/
def Constant.report (c : Constant) : Datum :=
  let type := match c with
    | null => "Null"
    | boolean _ => "Boolean"
    | char _ => "Char"
    | byte _ => "Byte"
    | short _ => "Short"
    | int _ => "Int"
    | long _ => "Long"
    | float _ => "Float"
    | double _ => "Double"
    | string _ => "String"
  texts [type, c.text]

def AnnotationValue.report : AnnotationValue → Datum
  | constant value => .fields [("Constant", value.report)]
  | array values => .fields [("Array", .list (values.map report))]
  | annotationUse key => .fields [("Annotation", key.index)]
  | classLiteral type => .fields [("ClassLiteral", type.index)]
  | enumEntry name => .fields [("EnumEntry", name)]
  | unsupported => "Unsupported"

def AnnotationRecord.report (a : AnnotationRecord) : Datum := .fields [
  ("class_name", opt text a.className), ("target", opt (nameOf ·) a.target),
  ("arguments", each (fun r => .list [opt text r.name, r.value.report]) a.arguments),
  ("position", opt Position.report a.position)]

def FileRecord.report (f : FileRecord) : Datum := .fields [
  ("path", f.path), ("package", f.package), ("declarations", symbols f.declarations),
  ("annotations", Datum.annotations f.annotations)]

end SymbolGraph
