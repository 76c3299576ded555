import SymbolGraph.Proofs.Meaning.Sound
import SymbolGraph.Proofs.Tidy.Wrapper

/-!
# What fields hold

What is known of the value of a field, told with the keys of the nodes in it. A field of a wrapper
that stands for nothing can be read as well as any other, so this is told without entities.
-/

namespace SymbolGraph

variable {α β : Type} {table : SymbolTable} {caches later : Caches} {kind : Kind} {field : Field}

/-! ## Facts -/

/-- The declaration was wrapped under a key. -/
def Fact.declared (key : SymbolKey) : Fact Declaration where
  Holds caches d := d.FoundUnder caches key
  grows h hgrows := h.grows hgrows

namespace View

/-- The answer shows this. -/
def of (v : View α β) (b : β) : Fact α where
  Holds caches a := v.Shows caches a b
  grows h hgrows := v.grows h hgrows

/-- A wrapper and the key that it was created under. -/
def found (kind : Kind) : View kind.Wrapper kind.Key where
  Shows caches w key := caches.lookup kind key = some w
  grows h hgrows := hgrows.lookup h

/-- A node and its key. -/
def keyed : View NodeId NodeKey where
  Shows caches node k := k.At caches node
  grows h hgrows := h.grows hgrows

/-- The element of a reference and its key. -/
def keyedElement : View ReferenceElement NodeKey where
  Shows caches e k := ∃ w, caches.lookup (.node k.kind) k.key = some w ∧ k.kind.element? w = some e
  grows := fun ⟨w, hw, he⟩ hgrows => ⟨w, hgrows.lookup hw, he⟩

end View

/-! ## Keys in fields -/

/-- A use of a type right under an owner, or under none. -/
def TypeKey.under (owner : Option NodeId) (type : TypeKey) : TypeReferenceKey :=
  { type, parent := owner, index := -1 }

/-- The uses of the types in a list of an owner, the first of which is at `index`. -/
def TypeKey.entries (owner : NodeId) : Nat → List TypeKey → List TypeReferenceKey
  | _, [] => []
  | index, type :: types => { type, parent := some owner, index } :: entries owner (index + 1) types

def AnnotationKey.on (bearer : Option NodeId) (key : AnnotationKey) : AnnotationUseKey :=
  { key, parent := bearer }

/-- The type of an argument replaced by something else. -/
def TypeArgument.map (f : α → β) : TypeArgument α → TypeArgument β
  | star => star
  | projection variance a => projection variance (f a)

theorem TypeArgument.filterMap_type?_map (f : α → β) (arguments : List (TypeArgument α)) :
    (arguments.map (·.map f)).filterMap type? = (arguments.filterMap type?).map f := by
  rw [List.filterMap_map, List.map_filterMap]
  refine List.filterMap_congr fun argument _ => ?_
  cases argument <;> rfl

/-- The syntax of the parameter is not native, so no default can be read from it. -/
def SymbolRecord.isForeign (parameter : SymbolRecord) : Bool :=
  parameter.source.any fun source => source.form ≠ .native

namespace SymbolTable

/-- The annotations whose target is wanted. -/
def aimed (table : SymbolTable) (wanted : Option UseSiteTarget → Bool) (keys : List AnnotationKey) :
    List AnnotationKey :=
  keys.filter fun key => table.annotations[key.index]?.any fun record => wanted record.target

/-- The table has a record of each of the annotations. -/
def KnowsAnnotations (table : SymbolTable) (keys : List AnnotationKey) : Prop :=
  ∀ key ∈ keys, key.index < table.annotations.size

/-- The type of the class of an annotation, if the class is known. -/
def annotationType (table : SymbolTable) (record : AnnotationRecord) : Option TypeKey := do
  let key ← table.classesByName[← record.className]?
  return (← table.classTypes[key]?).own

/-- The parameters that may give an annotation its default arguments: those of the only constructor of
its class. -/
def defaultParameters (table : SymbolTable) (record : AnnotationRecord) : List SymbolKey :=
  (do
    let key ← table.classesByName[← record.className]?
    let owner ← table.symbols[key.index]?
    match owner.details with
    | .classLike { constructors := [constructor], .. } =>
      match (← table.symbols[constructor.index]?).details with
      | .function details => return details.valueParameters
      | _ => none
    | _ => none).getD []

/-- The only constructor of the class of an annotation, if the class is known and has just one. -/
def soleConstructor (table : SymbolTable) (record : AnnotationRecord) : Option SymbolRecord := do
  let key ← table.classesByName[← record.className]?
  let owner ← table.symbols[key.index]?
  match owner.details with
  | .classLike details =>
    match details.constructors with
    | [constructor] => table.symbols[constructor.index]?
    | _ => none
  | _ => none

/-- The parameters of a constructor, with their records. -/
def parametersOf (table : SymbolTable) (constructor : SymbolRecord) :
    Option (List (SymbolKey × SymbolRecord)) :=
  match constructor.details with
  | .function details => details.valueParameters.mapM fun key =>
    table.symbols[key.index]?.map fun symbol => (key, symbol)
  | _ => none

/-- The parameters are those in the list of the constructor, and the records are those of the table. -/
theorem parametersOf_eq_some {table : SymbolTable} {constructor : SymbolRecord}
    {parameters : List (SymbolKey × SymbolRecord)} (h : table.parametersOf constructor = some parameters) :
    ∃ details, constructor.details = .function details ∧
      parameters.map Prod.fst = details.valueParameters ∧
      ∀ p ∈ parameters, table.symbols[p.1.index]? = some p.2 := by
  unfold parametersOf at h
  split at h
  · rename_i details hdetails
    refine ⟨details, hdetails, ?_⟩
    generalize details.valueParameters = keys at h ⊢
    induction keys generalizing parameters with
    | nil =>
      cases h
      exact ⟨rfl, List.forall_mem_nil _⟩
    | cons key keys ih =>
      rw [List.mapM_cons] at h
      obtain ⟨first, hfirst, h⟩ := Option.bind_eq_some_iff.mp h
      obtain ⟨rest, hrest, h⟩ := Option.bind_eq_some_iff.mp h
      obtain ⟨symbol, hsymbol, rfl⟩ := Option.map_eq_some_iff.mp hfirst
      cases h
      obtain ⟨hkeys, htold⟩ := ih hrest
      exact ⟨congrArg (key :: ·) hkeys, List.forall_mem_cons.mpr ⟨hsymbol, htold⟩⟩
  · cases h

/-- The parameters of the only constructor of the class of an annotation. -/
def annotationParameters (table : SymbolTable) (record : AnnotationRecord) :
    Option (List (SymbolKey × SymbolRecord)) :=
  (table.soleConstructor record).bind table.parametersOf

/-- The parameters among these that no argument covers, if their defaults are constants. -/
def leftToDefaults (table : SymbolTable) (covered : List String)
    (parameters : List (SymbolKey × SymbolRecord)) : List (SymbolKey × SymbolRecord) :=
  parameters.filter fun (_, parameter) =>
    parameter.name.any (· ∉ covered) && (table.defaultConstant parameter).isSome

/-- The parameters among these that no argument covers, if they were not written in native syntax. -/
def leftUnread (covered : List String) (parameters : List (SymbolKey × SymbolRecord)) :
    List (SymbolKey × SymbolRecord) :=
  parameters.filter fun (_, parameter) => parameter.name.any (· ∉ covered) && parameter.isForeign

theorem leftUnread_cons_of_read {covered : List String} {key : SymbolKey} {parameter : SymbolRecord}
    (h : (parameter.name.any (· ∉ covered) && parameter.isForeign) = false)
    (parameters : List (SymbolKey × SymbolRecord)) :
    leftUnread covered ((key, parameter) :: parameters) = leftUnread covered parameters :=
  List.filter_cons_of_neg (Bool.eq_false_iff.mp h)

/-- The parameters that an annotation leaves to defaults which cannot be read. -/
def unread (table : SymbolTable) (record : AnnotationRecord) : List (SymbolKey × SymbolRecord) :=
  ((table.annotationParameters record).map fun parameters =>
    leftUnread (AnnotationNode.coveredNames parameters 0 record.arguments) parameters).getD []

/-- The parameters that an annotation leaves to their defaults. -/
def defaulted (table : SymbolTable) (record : AnnotationRecord) : List (SymbolKey × SymbolRecord) :=
  ((table.annotationParameters record).map fun parameters =>
    table.leftToDefaults (AnnotationNode.coveredNames parameters 0 record.arguments) parameters).getD []

theorem annotationParameters_map_fst {table : SymbolTable} {record : AnnotationRecord}
    {parameters : List (SymbolKey × SymbolRecord)} (h : table.annotationParameters record = some parameters) :
    parameters.map Prod.fst = table.defaultParameters record := by
  obtain ⟨constructor, hconstructor, h⟩ := Option.bind_eq_some_iff.mp h
  obtain ⟨details, hdetails, hkeys, _⟩ := parametersOf_eq_some h
  unfold soleConstructor at hconstructor
  obtain ⟨className, hclass, hconstructor⟩ := Option.bind_eq_some_iff.mp hconstructor
  obtain ⟨key, hkey, hconstructor⟩ := Option.bind_eq_some_iff.mp hconstructor
  obtain ⟨owner, howner, hconstructor⟩ := Option.bind_eq_some_iff.mp hconstructor
  split at hconstructor
  · rename_i c hc
    split at hconstructor
    · rename_i sole hsole
      obtain ⟨_, _, _, _⟩ := c
      cases hsole
      simp [defaultParameters, hclass, hkey, howner, hc, hconstructor, hdetails, hkeys]
    · cases hconstructor
  · cases hconstructor

/-- Only parameters of the constructor are left to their defaults. -/
theorem defaulted_sublist (table : SymbolTable) (record : AnnotationRecord) :
    ((table.defaulted record).map Prod.fst).Sublist (table.defaultParameters record) := by
  unfold defaulted
  cases hparameters : table.annotationParameters record with
  | none => exact List.nil_sublist _
  | some parameters =>
    rw [← annotationParameters_map_fst hparameters]
    exact List.filter_sublist.map _

/-- The type that a constructor returns: that of its class with stars, if the table knows it. -/
def constructedType (table : SymbolTable) (symbol : SymbolRecord) : Option TypeKey := do
  return (← table.classTypes[← symbol.container]?).star

/-- The shape that the arguments of a type are taken from, if the table knows it. -/
def argumentShape (table : SymbolTable) : TypeShape → Option TypeShape
  | .flexible lower _ => table.types[lower.index]?.map TypeRecord.shape
  | .definitelyNotNull inner => table.types[inner.index]?.map TypeRecord.shape
  | shape => some shape

end SymbolTable

def TypeShape.arguments : TypeShape → List (TypeArgument TypeKey)
  | classType _ arguments => arguments
  | functional type => type.arguments
  | _ => []

/-- The annotations that belong to a declaration itself. -/
def Declaration.annotationKeys (table : SymbolTable) (d : Declaration) : List AnnotationKey :=
  match d with
  | .property p =>
    table.aimed (fun target => !target.any UseSiteTarget.isAccessor) p.symbol.annotations
  | d => table.aimed (fun _ => true) d.symbol.annotations

/-- The annotations of an accessor of a property. -/
def Accessor.annotationKeys (table : SymbolTable) (a : Accessor) (property : PropertyNode)
    (excluded pulled : UseSiteTarget) : List AnnotationKey :=
  table.aimed (· ≠ some excluded) a.symbol.annotations ++
    table.aimed (· = some pulled) property.symbol.annotations

/-- The written arguments of an annotation, by their positions. -/
def AnnotationNode.writtenSources (a : AnnotationNode) : List ArgumentSource :=
  (List.range' 0 a.record.arguments.length).map .written

/-- What a value parameter bears. That of a setter takes from the property of the setter what is aimed
at it. -/
inductive ValueParameterNode.Bears (table : SymbolTable) (caches : Caches) (p : ValueParameterNode) :
    List AnnotationKey → Prop
  | own : p.parent.kind ≠ .setter → Bears table caches p p.symbol.annotations
  | setter {s : SetterNode} {property : PropertyNode} : p.parent.kind = .setter →
    caches.Issued (⟨p.parent.index⟩ : SetterId) s → caches.Issued s.receiver property →
    Bears table caches p
      (p.symbol.annotations ++ table.aimed (· = some .setterParameter) property.symbol.annotations)

theorem ValueParameterNode.Bears.grows {p : ValueParameterNode} {keys : List AnnotationKey}
    (h : p.Bears table caches keys) (hgrows : caches.Grows later) : p.Bears table later keys := by
  cases h with
  | own hkind => exact .own hkind
  | setter hkind hs hproperty => exact .setter hkind (hs.grows hgrows) (hproperty.grows hgrows)

/-- What the element of a reference is made from, if it has one. -/
inductive TypeReference.ElementKey (table : SymbolTable) (r : TypeReference) :
    Option NodeKey → Prop
  | none : ElementKey table r none
  | classifier {record : TypeRecord} {className : String}
    {arguments : List (TypeArgument TypeKey)} :
    table.types[r.type.index]? = some record → record.shape = .classType className arguments →
    ElementKey table r (some ⟨.classifierReference, { type := r.type, owner := r.id }⟩)
  | bound {record : TypeRecord} {lower upper : TypeKey} :
    table.types[r.type.index]? = some record → record.shape = .flexible lower upper →
    ElementKey table r (some ⟨.classifierReference, { type := lower, owner := r.id }⟩)
  | callable {record : TypeRecord} {shape : FunctionalType} :
    table.types[r.type.index]? = some record → record.shape = .functional shape →
    ElementKey table r (some ⟨.callableReference, { type := r.type, owner := r.id }⟩)
  | dynamic : ElementKey table r (some ⟨.dynamicReference, r.id⟩)

/-! ## Containment -/

/-- The node is what a symbol lies in. -/
inductive SymbolRecord.Encloses (caches : Caches) (symbol : SymbolRecord) : Option NodeId → Prop
  | nothing : symbol.container = none → symbol.file = none → Encloses caches symbol none
  | file {key : FileKey} {w : FileNode} : symbol.container = none → symbol.file = some key →
    caches.lookup (.node .file) key = some w → Encloses caches symbol (some w.id.node)
  | declaration {key : SymbolKey} {d : Declaration} : symbol.container = some key →
    d.FoundUnder caches key → Encloses caches symbol (some d.node)
  | getter {key property : SymbolKey} {p : PropertyNode} {g : GetterNode} :
    symbol.container = some key → g.symbol.container = some property →
    caches.lookup (.node .property) property = some p →
    caches.lookup (.node .getter) { receiver := p.id, symbol := key } = some g →
    Encloses caches symbol (some g.id.node)
  | setter {key property : SymbolKey} {p : PropertyNode} {s : SetterNode} :
    symbol.container = some key → s.symbol.container = some property →
    caches.lookup (.node .property) property = some p →
    caches.lookup (.node .setter) { receiver := p.id, symbol := key } = some s →
    Encloses caches symbol (some s.id.node)

theorem SymbolRecord.Encloses.grows {symbol : SymbolRecord} {node : Option NodeId}
    (h : symbol.Encloses caches node) (hgrows : caches.Grows later) :
    symbol.Encloses later node := by
  cases h with
  | nothing hcontainer hfile => exact .nothing hcontainer hfile
  | file hcontainer hfile hw => exact .file hcontainer hfile (hgrows.lookup hw)
  | declaration hcontainer hd => exact .declaration hcontainer (hd.grows hgrows)
  | getter hcontainer hproperty hp hg =>
    exact .getter hcontainer hproperty (hgrows.lookup hp) (hgrows.lookup hg)
  | setter hcontainer hproperty hp hs =>
    exact .setter hcontainer hproperty (hgrows.lookup hp) (hgrows.lookup hs)

/-- The qualified name of a symbol along its containers. Nothing in a body or under an accessor has
one. -/
inductive SymbolTable.Names (table : SymbolTable) : SymbolRecord → Option String → Prop
  | inBody {symbol : SymbolRecord} : symbol.kind = .inBody → Names table symbol none
  | outermost {symbol : SymbolRecord} : symbol.kind ≠ .inBody → symbol.container = none →
    Names table symbol (some (packageQualified symbol.package symbol.simpleName))
  | inAccessor {symbol outer : SymbolRecord} {key : SymbolKey} : symbol.kind ≠ .inBody →
    symbol.container = some key → table.symbols[key.index]? = some outer →
    outer.details.sort.isDeclaration = false → Names table symbol none
  | nested {symbol outer : SymbolRecord} {key : SymbolKey} {name : Option String} :
    symbol.kind ≠ .inBody → symbol.container = some key →
    table.symbols[key.index]? = some outer → outer.details.sort.isDeclaration = true →
    Names table outer name →
    Names table symbol (name.map fun name => name ++ "." ++ symbol.simpleName)

/-! ## Comments -/

/-- The symbol is a constructor that was not written. -/
def SymbolRecord.isUnwrittenConstructor (symbol : SymbolRecord) : Bool :=
  match symbol.details with
  | .function f => f.isConstructor && (symbol.origin == .synthetic || symbol.source.isNone)
  | _ => false

namespace SymbolTable

/-- The class right around a symbol. -/
def enclosingClass? (table : SymbolTable) (symbol : SymbolRecord) : Option SymbolRecord :=
  symbol.container.bind fun owner =>
    table.symbols[owner.index]?.filter fun outer => outer.details.sort = .classLike

theorem enclosingClass?_of_container {table : SymbolTable} {symbol outer : SymbolRecord} {owner : SymbolKey}
    (hcontainer : symbol.container = some owner) (houter : table.symbols[owner.index]? = some outer) :
    table.enclosingClass? symbol = if outer.details.sort = .classLike then some outer else none := by
  rw [enclosingClass?, hcontainer, Option.bind_some, houter, Option.filter_some]
  simp only [decide_eq_true_eq]

/-- The comment on a symbol. That on a constructor that was not written is the comment of its class. -/
def doc (table : SymbolTable) (symbol : SymbolRecord) : Option String :=
  if symbol.isUnwrittenConstructor then (table.enclosingClass? symbol).bind SymbolRecord.doc
  else symbol.doc

end SymbolTable

/-! ## Fields -/

namespace Fact

def annotations (bearer : Option NodeId) (keys : List AnnotationKey) : Fact (List AnnotationNode) :=
  (View.found (.node .annotationUse)).list.of (keys.map (·.on bearer))

theorem annotations_append {bearer : Option NodeId} {keys keys' : List AnnotationKey}
    {as as' : List AnnotationNode} (h : (annotations bearer keys).Holds caches as)
    (h' : (annotations bearer keys').Holds caches as') :
    (annotations bearer (keys ++ keys')).Holds caches (as ++ as') := by
  have happend := View.list_append h h'
  rw [← List.map_append] at happend
  exact happend

/-- Those of some annotations whose target is wanted. The others are known as well. -/
def selected (table : SymbolTable) (bearer : NodeId) (wanted : Option UseSiteTarget → Bool)
    (keys : List AnnotationKey) : Fact (List AnnotationNode) :=
  and (plain fun _ => table.KnowsAnnotations keys) (annotations bearer (table.aimed wanted keys))

def declarationAnnotations (table : SymbolTable) (d : Declaration) : Fact (List AnnotationNode) :=
  and (plain fun _ => table.KnowsAnnotations d.symbol.annotations)
    (annotations d.node (d.annotationKeys table))

def reference (key : TypeReferenceKey) : Fact TypeReference :=
  (View.found (.node .typeReference)).of key

def reference? (owner : NodeId) (type : Option TypeKey) : Fact (Option TypeReference) :=
  (View.found (.node .typeReference)).option.of (type.map (·.under owner))

def references (keys : List TypeReferenceKey) : Fact (List TypeReference) :=
  (View.found (.node .typeReference)).list.of keys

def typeParameters (keys : List SymbolKey) : Fact (List TypeParameterNode) :=
  (View.found (.node .typeParameter)).list.of keys

def enclosing (symbol : SymbolRecord) : Fact (Option NodeId) where
  Holds caches node := symbol.Encloses caches node
  grows h hgrows := h.grows hgrows

def named (table : SymbolTable) (symbol : SymbolRecord) : Fact (Option String) :=
  plain (table.Names symbol)

/-- What an accessor takes from its property depends on the property that it was created for. -/
def accessorAnnotations (table : SymbolTable) (a : Accessor) (bearer : NodeId)
    (excluded pulled : UseSiteTarget) : Fact (List AnnotationNode) :=
  forSome fun property : PropertyNode => and (given a.receiver property) <|
    and (plain fun _ => table.KnowsAnnotations (a.symbol.annotations ++ property.symbol.annotations))
      (annotations bearer (a.annotationKeys table property excluded pulled))

/-- The annotations of a value parameter are these. -/
def bears {α : Type} (table : SymbolTable) (p : ValueParameterNode) (keys : List AnnotationKey) :
    Fact α where
  Holds caches _ := p.Bears table caches keys
  grows h hgrows := h.grows hgrows

def parameterAnnotations (table : SymbolTable) (p : ValueParameterNode) :
    Fact (List AnnotationNode) :=
  forSome fun keys : List AnnotationKey => and (bears table p keys) (annotations p.id.node keys)

/-- Arguments of one annotation, and where they come from. -/
def sourced (owner : AnnotationId) (sources : List ArgumentSource) : Fact (List ArgumentNode) :=
  (View.found (.node .valueArgument)).list.of (sources.map fun source => { owner, source })

theorem sourced_append {owner : AnnotationId} {sources sources' : List ArgumentSource}
    {as as' : List ArgumentNode} (h : (sourced owner sources).Holds caches as)
    (h' : (sourced owner sources').Holds caches as') :
    (sourced owner (sources ++ sources')).Holds caches (as ++ as') := by
  have happend := View.list_append h h'
  rw [← List.map_append] at happend
  exact happend

/-- The written arguments of an annotation come first, then those that are left to their defaults. -/
def arguments (table : SymbolTable) (a : AnnotationNode) : Fact (List ArgumentNode) :=
  and (plain fun _ => table.unread a.record = [])
    (sourced a.id (a.writtenSources ++ ((table.defaulted a.record).map Prod.fst).map .default))

end Fact

/-- What is known of the value of a field of a wrapper. -/
def LazyField.fact (table : SymbolTable) : LazyField kind field → kind.Wrapper → Fact field.Value
  | fileAnnotations, (w : FileNode) => .annotations w.id.node w.file.annotations
  | classParent, (w : ClassNode) => .enclosing w.symbol
  | classQualifiedName, (w : ClassNode) => .named table w.symbol
  | classAnnotations, (w : ClassNode) => .declarationAnnotations table (.classLike w)
  | classModifiers, _ => .any
  | classTypeParameters, (w : ClassNode) => .typeParameters w.details.typeParameters
  | classSuperTypes, (w : ClassNode) => .references (TypeKey.entries w.id.node 0 w.details.supertypes)
  | functionParent, (w : FunctionNode) => .enclosing w.symbol
  | functionQualifiedName, (w : FunctionNode) => .named table w.symbol
  | functionAnnotations, (w : FunctionNode) => .declarationAnnotations table (.function w)
  | functionModifiers, _ => .any
  | functionDocString, (w : FunctionNode) => .plain (· = table.doc w.symbol)
  | functionReceiverType, (w : FunctionNode) => .reference? w.id.node w.details.receiverType
  -- Which type it is depends on what was settled before, unless the function is a constructor.
  | functionReturnType, (w : FunctionNode) => .forSome fun type : TypeKey =>
    .and (.plain fun _ => w.details.isConstructor = true → table.constructedType w.symbol = some type)
      (.reference (type.under w.id.node))
  | functionParameters, (w : FunctionNode) =>
    (View.found (.node .valueParameter)).list.of
      (w.details.valueParameters.map fun key => { symbol := key, parent := w.id.node })
  | functionTypeParameters, (w : FunctionNode) => .typeParameters w.details.typeParameters
  | propertyParent, (w : PropertyNode) => .enclosing w.symbol
  | propertyQualifiedName, (w : PropertyNode) => .named table w.symbol
  | propertyAnnotations, (w : PropertyNode) => .declarationAnnotations table (.property w)
  | propertyModifiers, (w : PropertyNode) =>
    .plain (· = w.symbol.propertyModifiers w.details.flags)
  | propertyType, (w : PropertyNode) => .reference (w.details.type.under w.id.node)
  | propertyReceiverType, (w : PropertyNode) => .reference? w.id.node w.details.receiverType
  | propertyGetter, (w : PropertyNode) =>
    (View.found (.node .getter)).option.of
      (w.details.getter.map fun key => { receiver := w.id, symbol := key })
  | propertySetter, (w : PropertyNode) =>
    (View.found (.node .setter)).option.of
      (w.details.setter.map fun key => { receiver := w.id, symbol := key })
  | propertyTypeParameters, (w : PropertyNode) => .typeParameters w.details.typeParameters
  | typeParameterParent, (w : TypeParameterNode) => .enclosing w.symbol
  | typeParameterQualifiedName, (w : TypeParameterNode) => .named table w.symbol
  | typeParameterAnnotations, (w : TypeParameterNode) => .declarationAnnotations table (.typeParameter w)
  | typeParameterModifiers, _ => .any
  | typeParameterBounds, (w : TypeParameterNode) =>
    .references (TypeKey.entries w.id.node 0 w.details.bounds)
  | getterAnnotations, (w : GetterNode) =>
    .accessorAnnotations table w.toAccessor w.id.node .setterParameter .getter
  | getterModifiers, _ => .any
  | getterReturnType, (w : GetterNode) => .reference (w.returnTypeKey.under w.id.node)
  | setterAnnotations, (w : SetterNode) =>
    .accessorAnnotations table w.toAccessor w.id.node .getter .setter
  | setterModifiers, _ => .any
  | setterParameter, (w : SetterNode) => .forSome fun key : SymbolKey =>
    .and (.plain fun _ => w.parameterKey = some key)
      ((View.found (.node .valueParameter)).of { symbol := key, parent := w.id.node })
  | valueParameterAnnotations, (w : ValueParameterNode) => .parameterAnnotations table w
  | valueParameterType, (w : ValueParameterNode) => .reference (w.details.type.under w.id.node)
  | referenceAnnotations, (w : TypeReference) => .forSome fun type : TypeRecord =>
    .and (.plain fun _ => table.types[w.type.index]? = some type)
      (.annotations w.id.node type.annotations)
  | referenceModifiers, _ => .any
  | referenceElement, (w : TypeReference) => .forSome fun k : Option NodeKey =>
    .and (.plain fun _ => w.ElementKey table k) (View.keyedElement.option.of k)
  | classifierArguments, (w : ClassifierReference) =>
    (View.found (.node .typeReference)).argument.list.of
      (w.arguments.map (·.map (·.under w.id.node)))
  | callableReceiverType, (w : CallableReference) => .reference? w.id.node w.shape.receiver
  | callableParameters, (w : CallableReference) =>
    .references (w.shape.parameters.map (·.under w.id.node))
  | callableReturnType, (w : CallableReference) => .reference (w.shape.returnType.under w.id.node)
  | annotationArguments, (w : AnnotationNode) => .arguments table w
  | annotationType, (w : AnnotationNode) => .reference? w.id.node (table.annotationType w.record)
  | typeDeclaration, (w : ResolvedType) => .forSome fun key : SymbolKey =>
    .and (.plain fun _ => table.classifier w.key = some key) (.declared key)
  | typeArguments, (w : ResolvedType) => .forSome fun shape : TypeShape =>
    .and (.plain fun _ => table.argumentShape w.type.shape = some shape)
      ((View.found (.node .typeReference)).argument.list.of
        (shape.arguments.map (·.map (·.under none))))
  | typeAnnotations, (w : ResolvedType) => .annotations none w.type.annotations

/-! ## Tidy sessions -/

/-- A session over a table is tidy if its wrappers hold what the table says and its cells hold what
belongs in them. -/
structure Tidy (table : SymbolTable) (s : SessionState ReturnTypes) : Prop where
  genuine : s.caches.Genuine table
  held : ∀ {cell : Cell} {v : cell.Value}, s.memo.get? cell = some v →
    ∃ (w : cell.kind.Wrapper) (f : LazyField cell.kind cell.field),
      s.caches.Issued ⟨cell.slot⟩ w ∧ (f.fact table w).Holds s.caches v

namespace Tidy

variable {s t : SessionState ReturnTypes}

theorem start (table : SymbolTable) (types : ReturnTypes) : Tidy table (.start types) where
  genuine := .empty
  held hv := by simp [SessionState.start] at hv

/-- The front end has no part in it. -/
theorem of_sameSession (h : Tidy table s) (hsame : s.SameSession t) : Tidy table t := by
  refine ⟨hsame.caches ▸ h.genuine, ?_⟩
  intro cell v hv
  rw [hsame.memo] at hv
  rw [hsame.caches]
  exact h.held hv

/-- A wrapper under a new key holds what the table says. -/
theorem create (h : Tidy table s) {key : kind.Key} {build : Handle kind → kind.Wrapper}
    (hid : ∀ id, kind.idOf (build id) = id) (hmade : ∀ id, Made table kind key (build id))
    (hbacked : ∀ id, kind.Backed table s.caches key (build id)) :
    Tidy table (s.create kind key build).2 := by
  have hgrows : s.caches.Grows (s.create kind key build).2.caches :=
    (s.create_grows key build).caches
  refine ⟨⟨h.genuine.wellFormed.create key hid, ?_, ?_⟩, ?_⟩
  · apply SessionState.create_lookup h.genuine.wellFormed (h.genuine.made _)
    exact hmade _
  · apply SessionState.create_lookup h.genuine.wellFormed fun hw => (h.genuine.backed _ hw).grows hgrows
    exact (hbacked _).grows hgrows
  · intro cell v hv
    obtain ⟨w, f, hw, hfact⟩ := h.held hv
    exact ⟨w, f, hw.grows hgrows, (f.fact table w).grows hfact hgrows⟩

theorem fill (h : Tidy table s) {w : kind.Wrapper} (hw : s.caches.Issued (kind.idOf w) w)
    (f : LazyField kind field) {v : field.Value} (hfact : (f.fact table w).Holds s.caches v) :
    Tidy table (s.fill ((kind.idOf w).cell field) v).2 := by
  refine ⟨?_, ?_⟩
  · rw [s.fill_caches]
    exact h.genuine
  · rw [s.fill_caches]
    apply SessionState.fill_get? h.held
    exact ⟨w, f, hw, hfact⟩

/-- A filled cell of a wrapper holds what is known of its field. -/
theorem fact_of_get? (h : Tidy table s) {w : kind.Wrapper}
    (hw : s.caches.Issued (kind.idOf w) w) (f : LazyField kind field) {v : field.Value}
    (hv : s.memo.get? ((kind.idOf w).cell field) = some v) :
    (f.fact table w).Holds s.caches v := by
  obtain ⟨w', f', hw', hfact⟩ := h.held hv
  cases Option.some.inj (hw.symm.trans hw')
  rw [LazyField.unique f f']
  exact hfact

end Tidy

end SymbolGraph
