import SymbolGraph.Proofs.Oracle.Chain
import SymbolGraph.Proofs.Session.Success
import SymbolGraph.Proofs.Tidy.Parent

/-!
# Requests that succeed in tidy sessions

A wrapper is found if the table has a record of the right sort under its key. What a symbol lies in is
found if its container is a declaration or an accessor of a property.
-/

namespace SymbolGraph

variable {world : World} {s : SessionState ReturnTypes} {key : SymbolKey} {symbol : SymbolRecord}

/-- The files that symbols are said to lie in are in the table. -/
def SymbolTable.FilesKnown (table : SymbolTable) : Prop :=
  ∀ symbol ∈ table.symbols, ∀ file ∈ symbol.file, file.index < table.files.size

/-- The symbol is found as what another one lies in. -/
inductive SymbolRecord.Findable (symbols : Array SymbolRecord) (symbol : SymbolRecord) : Prop
  | declaration : symbol.details.sort.isDeclaration = true → Findable symbols symbol
  | accessor {property : SymbolKey} {outer : SymbolRecord} {details : PropertyDetails} :
    symbol.details.isAccessor = true → symbol.container = some property →
    symbols[property.index]? = some outer → outer.details = .property details →
    Findable symbols symbol

namespace Query

theorem file_succeeds {file : FileKey} (h : file.index < world.table.files.size) :
    (Query.file file).Succeeds world.session s := by
  have htold : Inquiry.Told world.table (.file file) world.table.files[file.index] :=
    Array.getElem?_eq_getElem h
  exact wrap_succeeds (.bind_ok (htold.request s) (.pure _))

/-! ## Symbols -/

section

variable (hsymbol : world.table.symbols[key.index]? = some symbol)
include hsymbol

theorem classLike_succeeds {details : ClassDetails} (hdetails : symbol.details = .classLike details) :
    (Query.classLike key).Succeeds world.session s := by
  refine wrap_succeeds (.bind_ok (SymbolTable.request_symbol hsymbol) ?_)
  rw [hdetails]
  exact .pure _

theorem function_succeeds {details : FunctionDetails} (hdetails : symbol.details = .function details) :
    (Query.function key).Succeeds world.session s := by
  refine wrap_succeeds (.bind_ok (SymbolTable.request_symbol hsymbol) ?_)
  rw [hdetails]
  exact .pure _

theorem property_succeeds {details : PropertyDetails} (hdetails : symbol.details = .property details) :
    (Query.property key).Succeeds world.session s := by
  refine wrap_succeeds (.bind_ok (SymbolTable.request_symbol hsymbol) ?_)
  rw [hdetails]
  exact .pure _

theorem typeParameter_succeeds {details : TypeParameterDetails}
    (hdetails : symbol.details = .typeParameter details) :
    (Query.typeParameter key).Succeeds world.session s := by
  refine wrap_succeeds (.bind_ok (SymbolTable.request_symbol hsymbol) ?_)
  rw [hdetails]
  exact .pure _

theorem getter_succeeds (receiver : PropertyId) {returnType : TypeKey}
    (hdetails : symbol.details = .getter returnType) :
    (Query.getter receiver key).Succeeds world.session s := by
  refine wrap_succeeds (.bind_ok (SymbolTable.request_symbol hsymbol) ?_)
  rw [hdetails]
  exact .pure _

theorem setter_succeeds (receiver : PropertyId) {parameter : Option SymbolKey}
    (hdetails : symbol.details = .setter parameter) :
    (Query.setter receiver key).Succeeds world.session s := by
  refine wrap_succeeds (.bind_ok (SymbolTable.request_symbol hsymbol) ?_)
  rw [hdetails]
  exact .pure _

theorem declaration_succeeds (hsort : symbol.details.sort.isDeclaration = true) :
    (Query.declaration key).Succeeds world.session s := by
  refine .bind_ok (SymbolTable.request_symbol hsymbol) ?_
  cases hdetails : symbol.details <;> rw [hdetails] at hsort
  case classLike => exact (classLike_succeeds hsymbol hdetails).map _
  case function => exact (function_succeeds hsymbol hdetails).map _
  case property => exact (property_succeeds hsymbol hdetails).map _
  case typeParameter => exact (typeParameter_succeeds hsymbol hdetails).map _
  all_goals cases hsort

end

end Query

/-! ## Types -/

namespace Query

theorem typeReference_succeeds {type : TypeKey} {parent : Option NodeId} {index : Int}
    (hparent : ∀ node ∈ parent, ∃ w, s.caches.Issued node.handle w) :
    (Query.typeReference type parent index).Succeeds world.session s := by
  refine wrap_succeeds ?_
  cases parent with
  | none => exact .pure _
  | some node =>
    obtain ⟨w, hw⟩ := hparent node rfl
    have horigin : origin node world.session s = .ok (node.kind.origin w) s :=
      Action.bind_of_ok (resolve_of_get world.session hw) _
    exact .bind_ok horigin (.pure _)

theorem resolvedType_succeeds {type : TypeKey} {record : TypeRecord}
    (hrecord : world.table.types[type.index]? = some record) :
    (Query.resolvedType type).Succeeds world.session s :=
  wrap_succeeds (.bind_ok (Inquiry.Told.request (i := .type type) hrecord s) (.pure _))

end Query

/-! ## Containers -/

/-- What a symbol lies in is found. -/
theorem SymbolRecord.containerNode_succeeds
    (hfile : symbol.container = none → ∀ file ∈ symbol.file, file.index < world.table.files.size)
    (hcontainer : ∀ outerKey ∈ symbol.container, ∃ outer,
      world.table.symbols[outerKey.index]? = some outer ∧ outer.Findable world.table.symbols) :
    symbol.containerNode.Succeeds world.session s := by
  unfold containerNode
  cases hcases : symbol.container with
  | none =>
    cases hfileCases : symbol.file with
    | none => exact .pure _
    | some file => exact (Query.file_succeeds (hfile hcases file hfileCases)).map _
  | some outerKey =>
    obtain ⟨outer, houter, hfindable⟩ := hcontainer outerKey hcases
    refine .bind_ok (SymbolTable.request_symbol houter) ?_
    cases hfindable with
    | declaration hsort =>
      have hfound := (Query.declaration_succeeds houter hsort).map (s := s) fun d => some d.node
      cases hdetails : outer.details <;> rw [hdetails] at hsort <;> first | exact hfound | cases hsort
    | accessor haccessor hproperty hpropertySymbol hpropertyDetails =>
      rw [hproperty]
      have hfound := Query.property_succeeds (s := s) hpropertySymbol hpropertyDetails
      cases hdetails : outer.details <;> rw [hdetails] at haccessor
      case getter => exact hfound.bind fun _ => (Query.getter_succeeds houter _ hdetails).map _
      case setter => exact hfound.bind fun _ => (Query.setter_succeeds houter _ hdetails).map _
      all_goals cases haccessor

end SymbolGraph
