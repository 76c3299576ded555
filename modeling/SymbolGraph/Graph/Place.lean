import SymbolGraph.Session.Wrap

/-!
# Places

Where the nodes of the graph are written. Everything that goes missing on the way (a
position, a file, an offset past the end of a file, a stale handle above a reference) makes
the place absent and is no error.

A reference element is where its type reference is. A type reference is where its owner is,
except that an entry of a supertype or bound list has a place of its own.
-/

namespace SymbolGraph

variable {σ : Type}

/-- The place of a position. -/
def Query.locate : Option Position → Query σ Location
  | none => return .absent
  | some position => do
    match ← ask (·.file position.file) with
    | .error _ => return .absent
    | .ok file =>
      match ← ask (·.lineCol position.file position.offset) with
      | none => return .absent
      | some place => return .ofLineCol file.path place

def SymbolRecord.location (symbol : SymbolRecord) : Query σ Location :=
  Query.locate (symbol.source.map Source.position)

/-- The type reference that a node shares its place with: a reference itself, or the reference
that an element belongs to. -/
def NodeKind.reference? : (kind : NodeKind) → kind.Wrapper → Option TypeReferenceId
  | .typeReference, (w : TypeReference) => some w.id
  | .classifierReference, (w : ClassifierReference) => some w.owner
  | .callableReference, (w : CallableReference) => some w.owner
  | .dynamicReference, (w : DynamicReference) => some w.owner
  | _, _ => none

/-- The place of a node that has one of its own. -/
def NodeKind.ownLocation : (kind : NodeKind) → kind.Wrapper → Query σ Location
  | .file, (w : FileNode) => return .file w.file.path 1 1
  | .classLike, (w : ClassNode) => w.symbol.location
  | .function, (w : FunctionNode) => w.symbol.location
  | .property, (w : PropertyNode) => w.symbol.location
  | .getter, (w : GetterNode) => w.symbol.location
  | .setter, (w : SetterNode) => w.symbol.location
  | .valueParameter, (w : ValueParameterNode) => w.symbol.location
  | .typeParameter, (w : TypeParameterNode) => w.symbol.location
  | .annotationUse, (w : AnnotationNode) => Query.locate w.record.position
  | .valueArgument, (w : ArgumentNode) => Query.locate w.position
  | .typeReference, _ | .classifierReference, _ | .callableReference, _ | .dynamicReference, _ =>
    return .absent

/-- The position of an entry in the supertype list of a class or the bound list of a type
parameter. -/
def NodeId.entryPosition (node : NodeId) (entry : Nat) : Query σ (Option Position) := do
  match node.kind with
  | .classLike =>
    let owner ← Query.find? (⟨node.index⟩ : ClassId)
    return do (← (← owner).symbol.source).supertypeEntries[entry]?
  | .typeParameter =>
    let owner ← Query.find? (⟨node.index⟩ : TypeParameterId)
    return do (← (← owner).symbol.source).boundEntries[entry]?
  | _ => return none

/-- The place of a type reference. References are created after their owners, so the number of
references bounds the way up. -/
def TypeReference.locationWithin : Nat → TypeReference → Query σ Location
  | 0, _ => return .absent
  | steps + 1, reference => do
    match reference.parent with
    | none => return .absent
    | some parent =>
      -- Only the entries of a list have indexes from zero on.
      if 0 ≤ reference.index then
        Query.locate (← parent.entryPosition reference.index.toNat)
      else
        match ← Query.find? parent.handle with
        | none => return .absent
        | some owner =>
          match parent.kind.reference? owner with
          | none => parent.kind.ownLocation owner
          | some id =>
            match ← Query.find? id with
            | none => return .absent
            | some above => above.locationWithin steps

/-- The place of a wrapper. -/
def NodeKind.location (kind : NodeKind) (wrapper : kind.Wrapper) : Query σ Location := do
  match kind.reference? wrapper with
  | none => kind.ownLocation wrapper
  | some id =>
    match ← Query.find? id with
    | none => return .absent
    | some reference =>
      -- The way up does not meet a reference twice.
      reference.locationWithin ((← get).caches.typeReferences.size + 1)

/-- The place of a node. -/
def NodeId.location (node : NodeId) : Query σ Location := do
  node.kind.location (← Query.resolve node.handle)

end SymbolGraph
