import SymbolGraph.Graph.Children
import SymbolGraph.Graph.Documentation
import SymbolGraph.Graph.Modifiers
import SymbolGraph.Graph.Place
import SymbolGraph.Processing.Processor
import SymbolGraph.Report.Record

/-!
# Reports of nodes

Everything that a session can tell about a wrapper, field by field. Every field is a query
of its own, so one that fails leaves the others alone. Other wrappers are reported by their
handles.
-/

namespace SymbolGraph

open Datum

variable {σ : Type}

/-! ## Handles and names -/

def NodeId.report (node : NodeId) : Datum := s!"{node.kind.name}#{node.index}"

def Handle.report {kind : Kind} (h : Handle kind) : Datum := s!"{kind.name}#{h.index}"

def Declaration.report (d : Declaration) : Datum := d.node.report

/-- The variance of a use of a type. -/
def Variance.name : Variance → String
  | invariant => "Invariant"
  | contravariant => "Contravariant"
  | covariant => "Covariant"

/-- A use-site target as it is written in source code. -/
def UseSiteTarget.name : UseSiteTarget → String
  | file => "File"
  | property => "Property"
  | field => "Field"
  | getter => "Get"
  | setter => "Set"
  | receiver => "Receiver"
  | parameter => "Param"
  | setterParameter => "SetParam"
  | delegate => "Delegate"

def Origin.name : Origin → String
  | source => "Source"
  | binary => "Binary"
  | interop => "Interop"
  | interopBinary => "InteropBinary"
  | synthetic => "Synthetic"

def ClassCategory.name : ClassCategory → String
  | plainClass => "Class"
  | interface => "Interface"
  | enumClass => "EnumClass"
  | enumEntry => "EnumEntry"
  | object => "Object"
  | annotationClass => "AnnotationClass"

def FunctionCategory.name : FunctionCategory → String
  | member => "Member"
  | topLevel => "TopLevel"
  | lambda => "Lambda"

/-- The names of the modifiers, in the order of their bytes. -/
def ModifierSet.report (set : ModifierSet) : Datum :=
  texts (sortTexts (set.elements.map Modifier.name))

/-- An argument of a type: its variance, its type, and whether it is a star. -/
def TypeArgument.view : TypeArgument TypeReference → Datum
  | star => .list ["Star", nothing, true]
  | projection variance type => .list [variance.name, type.id.report, false]

/-! ## Fields -/

/-- Reports of fields by name, in order. -/
abbrev FieldReports (σ : Type) := List (String × Query σ Datum)

namespace FieldReports

/-- A field that is known without asking. -/
def known (d : Datum) : Query σ Datum := return d

/-- The items of a list one by one, failures in place. -/
def items {α : Type} (keys : List α) (report : α → Query σ Datum) : Query σ Datum := do
  return .list (← keys.mapM fun key => return outcome (← Action.attempt (report key)))

def declarations (keys : List SymbolKey) : Query σ Datum :=
  items keys fun key => return (← Query.declaration key).report

def annotations (q : Query σ (List AnnotationNode)) : Query σ Datum :=
  return each (·.id.report) (← q)

def modifiers (q : Query σ ModifierSet) : Query σ Datum := return (← q).report

def reference (q : Query σ TypeReference) : Query σ Datum := return (← q).id.report

def reference? (q : Query σ (Option TypeReference)) : Query σ Datum :=
  return opt (·.id.report) (← q)

def references (q : Query σ (List TypeReference)) : Query σ Datum :=
  return each (·.id.report) (← q)

def typeParameters (q : Query σ (List TypeParameterNode)) : Query σ Datum :=
  return each (·.id.report) (← q)

def typeArguments (q : Query σ (List (TypeArgument TypeReference))) : Query σ Datum :=
  return each TypeArgument.view (← q)

/-- The fields that every declaration begins with. -/
def ofDeclaration (d : Declaration) : FieldReports σ := [
  ("symbol_key", known d.key.index),
  ("simple_name", known d.simpleName),
  ("qualified_name", return opt text (← d.qualifiedName))]

def ofFile (w : FileNode) : FieldReports σ := [
  ("file_key", known w.key.index),
  ("file_path", known w.file.path),
  ("file_name", known w.file.name),
  ("package_name", known w.file.package),
  ("declarations", declarations w.file.declarations),
  ("annotations", annotations w.annotations)]

def ofClass (w : ClassNode) : FieldReports σ :=
  ofDeclaration (.classLike w) ++ [
  ("package_name", known w.symbol.package),
  ("doc_string", known (opt text w.symbol.doc)),
  ("class_kind", return (← w.category).name),
  ("is_companion_object", known w.isCompanionObject),
  ("modifiers", modifiers w.modifiers),
  ("annotations", annotations (Declaration.classLike w).annotations),
  ("type_parameters", typeParameters w.typeParameters),
  ("super_types", references w.superTypes),
  ("constructors", items w.details.constructors fun key =>
    return (← Query.function key).id.report),
  ("primary_constructor", return opt (·.id.report) (← w.primaryConstructor)),
  ("declarations", declarations w.declarationKeys),
  ("as_star_projected_type", return (← w.starProjectedType).id.report)]

def ofFunction (w : FunctionNode) : FieldReports σ :=
  ofDeclaration (.function w) ++ [
  ("package_name", known w.symbol.package),
  ("doc_string", return opt text (← w.docString)),
  ("is_constructor", known w.details.isConstructor),
  ("function_kind", return (← w.category).name),
  ("is_abstract", known w.isAbstract),
  ("modifiers", modifiers w.modifiers),
  ("annotations", annotations (Declaration.function w).annotations),
  ("extension_receiver", reference? w.receiverType),
  ("return_type", reference w.returnType),
  ("parameters", return each (·.id.report) (← w.parameters)),
  ("type_parameters", typeParameters w.typeParameters),
  ("declarations", declarations w.declarationKeys),
  ("find_overridee", return opt Declaration.report (← w.overridden))]

def ofProperty (w : PropertyNode) : FieldReports σ :=
  ofDeclaration (.property w) ++ [
  ("package_name", known w.symbol.package),
  ("doc_string", known (opt text w.symbol.doc)),
  ("is_mutable", known w.details.flags.isMutable),
  ("has_backing_field", known w.details.flags.hasBackingField),
  ("modifiers", modifiers w.modifiers),
  ("annotations", annotations (Declaration.property w).annotations),
  ("ty", reference w.type),
  ("extension_receiver", reference? w.receiverType),
  ("getter", return opt (·.id.report) (← w.getter)),
  ("setter", return opt (·.id.report) (← w.setter)),
  ("type_parameters", typeParameters w.typeParameters),
  ("parent_declaration", return opt Declaration.report (← (Declaration.property w).parentDeclaration))]

/-- The fields that both sorts of accessor begin with. -/
def ofAccessor (w : Accessor) : FieldReports σ := [
  ("symbol_key", known w.key.index),
  ("receiver", return (← Query.resolve w.receiver).id.report)]

def ofGetter (w : GetterNode) : FieldReports σ :=
  ofAccessor w.toAccessor ++ [
  ("modifiers", modifiers w.modifiers),
  ("annotations", annotations w.annotations),
  ("return_type", reference w.returnType)]

def ofSetter (w : SetterNode) : FieldReports σ :=
  ofAccessor w.toAccessor ++ [
  ("modifiers", modifiers w.modifiers),
  ("annotations", annotations w.annotations),
  ("parameter", return (← w.parameter).id.report)]

def ofValueParameter (w : ValueParameterNode) : FieldReports σ := [
  ("symbol_key", known w.key.index),
  ("name", known (opt text w.symbol.name)),
  ("has_default", known w.details.flags.hasDefaultValue),
  ("is_vararg", known w.details.flags.isVararg),
  ("is_noinline", known w.details.flags.isNoinline),
  ("is_crossinline", known w.details.flags.isCrossinline),
  ("ty", reference w.type),
  ("annotations", annotations w.annotations)]

def ofTypeParameter (w : TypeParameterNode) : FieldReports σ :=
  ofDeclaration (.typeParameter w) ++ [
  ("variance", known w.details.variance.name),
  ("is_reified", known w.details.isReified),
  ("modifiers", modifiers w.modifiers),
  ("bounds", references w.bounds),
  ("annotations", annotations (Declaration.typeParameter w).annotations)]

def ofTypeReference (w : TypeReference) : FieldReports σ := [
  ("type_key", known w.type.index),
  ("index", known (.number w.index)),
  ("render", return (← w.render)),
  ("element", return opt (·.node.report) (← w.element)),
  ("resolve", return ((← w.resolve).map (·.id.report)).getD "Error"),
  ("modifiers", modifiers w.modifiers),
  ("annotations", annotations w.annotations)]

def ofClassifierReference (w : ClassifierReference) : FieldReports σ := [
  ("type_key", known w.type.index),
  ("referenced_name", known w.referencedName),
  ("qualified_name", known w.className),
  ("type_arguments", typeArguments w.typeArguments)]

def ofCallableReference (w : CallableReference) : FieldReports σ := [
  ("type_key", known w.type.index),
  ("is_suspend", known w.shape.isSuspend),
  ("receiver_type", reference? w.receiverType),
  ("function_parameters", references w.functionParameters),
  ("return_type", reference w.returnType)]

def ofAnnotationUse (w : AnnotationNode) : FieldReports σ := [
  ("annotation_key", known w.key.index),
  ("qualified_name", known (opt text w.qualifiedName)),
  ("short_name", known w.shortName),
  ("use_site_target", known (opt (·.name) w.record.target)),
  ("arguments", return each (·.id.report) (← w.arguments)),
  ("annotation_type", reference? w.annotationType),
  ("default_arguments", return each (·.id.report) (← w.defaultArguments))]

/-- No argument of an annotation is spread. -/
def ofValueArgument (w : ArgumentNode) : FieldReports σ := [
  ("name", known (opt text w.name)),
  ("value", known w.value.report),
  ("is_spread", known false)]

def ofResolvedType (w : ResolvedType) : FieldReports σ := [
  ("type_key", known w.key.index),
  ("rendered", known w.type.rendered),
  ("display", known w.type.text),
  ("debug", known w.debugText),
  ("is_marked_nullable", known w.type.nullable),
  ("is_function_type", known w.isFunctionType),
  ("is_suspend_function_type", known w.isSuspendFunctionType),
  ("declaration", return (← w.declaration).report),
  ("arguments", typeArguments w.arguments),
  ("annotations", annotations w.annotations),
  ("is_star_projected", return (← w.isStarProjected))]

/-- The fields of a wrapper that are particular to its kind. -/
def ofWrapper : (kind : Kind) → kind.Wrapper → FieldReports σ
  | .node .file, w => ofFile w
  | .node .classLike, w => ofClass w
  | .node .function, w => ofFunction w
  | .node .property, w => ofProperty w
  | .node .getter, w => ofGetter w
  | .node .setter, w => ofSetter w
  | .node .valueParameter, w => ofValueParameter w
  | .node .typeParameter, w => ofTypeParameter w
  | .node .typeReference, w => ofTypeReference w
  | .node .classifierReference, w => ofClassifierReference w
  | .node .callableReference, w => ofCallableReference w
  | .node .dynamicReference, _ => []
  | .node .annotationUse, w => ofAnnotationUse w
  | .node .valueArgument, w => ofValueArgument w
  | .resolvedType, w => ofResolvedType w

/-- The fields of every node. -/
def ofNode (node : NodeId) : FieldReports σ := [
  ("origin", return (← Query.origin node).name),
  ("location", return (← node.location).text),
  ("parent", return opt NodeId.report (← node.parent)),
  ("children", return each NodeId.report (← node.children))]

/-- All fields of the wrapper with this handle. -/
def of {kind : Kind} (h : Handle kind) : Query σ (FieldReports σ) := do
  let wrapper ← Query.resolve h
  return ofWrapper kind wrapper ++ match kind with
    | .node kind => ofNode ⟨kind, h.index⟩
    | .resolvedType => []

/-- Reports the fields in turn. -/
def report (fields : FieldReports σ) : Query σ Datum := do
  return .fields (← fields.mapM fun (name, q) => return (name, outcome (← Action.attempt q)))

end FieldReports

/-- Reports everything about the wrapper with this handle. -/
def Handle.describe {kind : Kind} (h : Handle kind) : Query σ Datum := do
  (← FieldReports.of h).report

/-- Reports what every declaration has. -/
def Declaration.describe (d : Declaration) : Query σ Datum :=
  FieldReports.report [
    ("node", FieldReports.known d.report),
    ("symbol_key", FieldReports.known d.key.index),
    ("simple_name", FieldReports.known d.simpleName),
    ("package_name", FieldReports.known d.packageName),
    ("is_class", FieldReports.known (d.node.kind = .classLike : Bool)),
    ("is_function", FieldReports.known (d.node.kind = .function : Bool)),
    ("is_property", FieldReports.known (d.node.kind = .property : Bool)),
    ("origin", FieldReports.known d.origin.name),
    ("location", return (← d.symbol.location).text),
    ("qualified_name", return opt text (← d.qualifiedName)),
    ("modifiers", FieldReports.modifiers d.modifiers),
    ("doc_string", return opt text (← d.docString)),
    ("parent", return opt NodeId.report (← d.parent)),
    ("parent_declaration", return opt Declaration.report (← d.parentDeclaration)),
    ("annotations", FieldReports.annotations d.annotations)]

end SymbolGraph
