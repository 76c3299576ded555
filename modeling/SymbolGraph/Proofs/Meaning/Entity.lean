import SymbolGraph.Proofs.Session.Identity

/-!
# Entities

What a wrapper stands for, told without handles: the key that it was created under, in which
each handle is replaced by what that handle stands for. The number of a handle depends on
what a session did before; the entity behind it does not.
-/

namespace SymbolGraph

/-- The wrapper of a kind under a key. -/
def Caches.lookup (caches : Caches) (kind : Kind) (key : kind.Key) : Option kind.Wrapper :=
  (caches.get kind).lookup key

theorem Caches.Grows.lookup {a b : Caches} (h : a.Grows b) {kind : Kind} {key : kind.Key}
    {w : kind.Wrapper} (hw : a.lookup kind key = some w) : b.lookup kind key = some w :=
  (h kind).lookup hw

inductive Entity : Kind → Type
  | file (key : FileKey) : Entity (.node .file)
  | classLike (key : SymbolKey) : Entity (.node .classLike)
  | function (key : SymbolKey) : Entity (.node .function)
  | property (key : SymbolKey) : Entity (.node .property)
  | typeParameter (key : SymbolKey) : Entity (.node .typeParameter)
  | getter (receiver key : SymbolKey) : Entity (.node .getter)
  | setter (receiver key : SymbolKey) : Entity (.node .setter)
  | valueParameter (key : SymbolKey) {kind : NodeKind} (parent : Entity (.node kind)) :
    Entity (.node .valueParameter)
  | typeReference (type : TypeKey) {kind : NodeKind} (parent : Entity (.node kind)) (index : Int) :
    Entity (.node .typeReference)
  /-- A use of a type that was written nowhere. -/
  | looseReference (type : TypeKey) (index : Int) : Entity (.node .typeReference)
  | classifierReference (type : TypeKey) (owner : Entity (.node .typeReference)) :
    Entity (.node .classifierReference)
  | callableReference (type : TypeKey) (owner : Entity (.node .typeReference)) :
    Entity (.node .callableReference)
  | dynamicReference (owner : Entity (.node .typeReference)) : Entity (.node .dynamicReference)
  | annotationUse (key : AnnotationKey) {kind : NodeKind} (bearer : Entity (.node kind)) :
    Entity (.node .annotationUse)
  /-- An annotation of a type apart from its uses. -/
  | looseAnnotationUse (key : AnnotationKey) : Entity (.node .annotationUse)
  | valueArgument (owner : Entity (.node .annotationUse)) (source : ArgumentSource) :
    Entity (.node .valueArgument)
  | resolvedType (key : TypeKey) : Entity .resolvedType

namespace Entity

variable {kind : Kind}

/-- The key that a session knows an entity by, if it knows everything in that key. -/
def keyIn (caches : Caches) : {kind : Kind} → Entity kind → Option kind.Key
  | _, .file key => some key
  | _, .classLike key | _, .function key | _, .property key | _, .typeParameter key => some key
  | _, .getter receiver key | _, .setter receiver key =>
    (caches.lookup (.node .property) receiver).map fun p =>
      { receiver := PropertyNode.id p, symbol := key }
  | _, @valueParameter key kind parent =>
    ((parent.keyIn caches).bind (caches.lookup (.node kind))).map fun p =>
      { symbol := key, parent := ((Kind.node kind).idOf p).node }
  | _, @typeReference type kind parent index =>
    ((parent.keyIn caches).bind (caches.lookup (.node kind))).map fun p =>
      { type, parent := some ((Kind.node kind).idOf p).node, index }
  | _, .looseReference type index => some { type, parent := none, index }
  | _, .classifierReference type owner | _, .callableReference type owner =>
    ((owner.keyIn caches).bind (caches.lookup (.node .typeReference))).map fun r =>
      { type, owner := TypeReference.id r }
  | _, .dynamicReference owner =>
    ((owner.keyIn caches).bind (caches.lookup (.node .typeReference))).map fun r =>
      TypeReference.id r
  | _, @annotationUse key kind bearer =>
    ((bearer.keyIn caches).bind (caches.lookup (.node kind))).map fun b =>
      { key, parent := some ((Kind.node kind).idOf b).node }
  | _, .looseAnnotationUse key => some { key, parent := none }
  | _, .valueArgument owner source =>
    ((owner.keyIn caches).bind (caches.lookup (.node .annotationUse))).map fun a =>
      { owner := AnnotationNode.id a, source }
  | _, .resolvedType key => some key

/-- The wrapper of an entity in a session, if there is one. -/
def find (caches : Caches) {kind : Kind} (e : Entity kind) : Option kind.Wrapper :=
  (e.keyIn caches).bind (caches.lookup kind)

variable {caches later : Caches}

theorem find_eq_some {e : Entity kind} {w : kind.Wrapper} :
    e.find caches = some w ↔
      ∃ key, e.keyIn caches = some key ∧ caches.lookup kind key = some w :=
  Option.bind_eq_some_iff

/-! ## Growth -/

theorem keyIn_grows {e : Entity kind} {key : kind.Key} (h : e.keyIn caches = some key)
    (hgrows : caches.Grows later) : e.keyIn later = some key := by
  -- A key that contains a handle is known by the wrapper that the handle leads to.
  have hwrapper {other : Kind} {parent : Entity other} {β : Type} {f : other.Wrapper → β} {b : β}
      (ih : ∀ {key}, parent.keyIn caches = some key → parent.keyIn later = some key)
      (h : ((parent.keyIn caches).bind (caches.lookup other)).map f = some b) :
      ((parent.keyIn later).bind (later.lookup other)).map f = some b := by
    obtain ⟨w, hw, hb⟩ := Option.map_eq_some_iff.mp h
    obtain ⟨key, hkey, hlookup⟩ := Option.bind_eq_some_iff.mp hw
    rw [ih hkey, Option.bind_some, hgrows.lookup hlookup, Option.map_some, hb]
  induction e with
  | file | classLike | function | property | typeParameter | looseReference | looseAnnotationUse
  | resolvedType => exact h
  | getter receiver _ | setter receiver _ =>
    obtain ⟨p, hp, hkey⟩ := Option.map_eq_some_iff.mp h
    have hlater : later.lookup (.node .property) receiver = some p := hgrows.lookup hp
    rw [keyIn, hlater]
    exact congrArg some hkey
  | valueParameter _ _ ih => exact hwrapper ih h
  | typeReference _ _ _ ih => exact hwrapper ih h
  | classifierReference _ _ ih => exact hwrapper ih h
  | callableReference _ _ ih => exact hwrapper ih h
  | dynamicReference _ ih => exact hwrapper ih h
  | annotationUse _ _ ih => exact hwrapper ih h
  | valueArgument _ _ ih => exact hwrapper ih h

theorem find_grows {e : Entity kind} {w : kind.Wrapper} (h : e.find caches = some w)
    (hgrows : caches.Grows later) : e.find later = some w := by
  obtain ⟨key, hkey, hw⟩ := find_eq_some.mp h
  exact find_eq_some.mpr ⟨key, keyIn_grows hkey hgrows, hgrows.lookup hw⟩

/-! ## Handles of entities -/

/-- The handle leads to the entity. -/
def At (caches : Caches) (e : Entity kind) (h : Handle kind) : Prop :=
  ∃ w, e.find caches = some w ∧ kind.idOf w = h

theorem At.grows {e : Entity kind} {h : Handle kind} (hat : e.At caches h)
    (hgrows : caches.Grows later) : e.At later h := by
  obtain ⟨w, hw, hid⟩ := hat
  exact ⟨w, find_grows hw hgrows, hid⟩

theorem at_of_find {e : Entity kind} {w : kind.Wrapper} (h : e.find caches = some w) :
    e.At caches (kind.idOf w) :=
  ⟨w, h, rfl⟩

/-- The key of an entity under another one, once the wrapper of that other one is known. -/
theorem map_find {e : Entity kind} {w : kind.Wrapper} (h : e.find caches = some w) {β : Type}
    (f : kind.Wrapper → β) : ((e.keyIn caches).bind (caches.lookup kind)).map f = some (f w) :=
  congrArg (Option.map f) h

/-- Wrappers with one handle have one key, so they stand for one entity if entities of one key are one. -/
theorem find_injective (wf : caches.WellFormed) {e e' : Entity kind} {w w' : kind.Wrapper}
    (hkeys : ∀ {e' key}, e.keyIn caches = some key → e'.keyIn caches = some key → e = e')
    (hw : e.find caches = some w) (hw' : e'.find caches = some w')
    (hid : kind.idOf w = kind.idOf w') : e = e' := by
  obtain ⟨key, hkey, hlookup⟩ := find_eq_some.mp hw
  obtain ⟨key', hkey', hlookup'⟩ := find_eq_some.mp hw'
  have hsame := (wf kind).lookup_injective hlookup hlookup' (congrArg Handle.index hid)
  subst hsame
  exact hkeys hkey hkey'

theorem find_node_injective (wf : caches.WellFormed) {first second : NodeKind}
    {e : Entity (.node first)} {e' : Entity (.node second)} {w : first.Wrapper} {w' : second.Wrapper}
    (hkeys : ∀ {e' key}, e.keyIn caches = some key → e'.keyIn caches = some key → e = e')
    (hw : e.find caches = some w) (hw' : e'.find caches = some w')
    (hid : ((Kind.node first).idOf w).node = ((Kind.node second).idOf w').node) :
    first = second ∧ HEq e e' := by
  injection hid with hkind hindex
  subst hkind
  exact ⟨rfl, heq_of_eq (find_injective wf hkeys hw hw' (congrArg Handle.mk hindex))⟩

/-- In well-formed caches, entities of one key are one entity. -/
theorem keyIn_injective (wf : caches.WellFormed) {e e' : Entity kind} {key : kind.Key}
    (h : e.keyIn caches = some key) (h' : e'.keyIn caches = some key) : e = e' := by
  -- The kind of an entity and the shape of its key tell how it was put together.
  induction e with
  | file | classLike | function | property | typeParameter | resolvedType =>
    cases e'
    cases h
    cases h'
    rfl
  | getter receiver | setter receiver =>
    cases e' with | _ receiver' =>
    obtain ⟨p, hp, hkey⟩ := Option.map_eq_some_iff.mp h
    obtain ⟨p', hp', hkey'⟩ := Option.map_eq_some_iff.mp h'
    subst hkey
    injection hkey' with hid hsymbol
    have hnumber := congrArg Handle.index hid.symm
    have hreceiver := (wf (.node .property)).lookup_injective hp hp' hnumber
    cases hreceiver
    cases hsymbol
    rfl
  | looseReference =>
    cases e' with
    | looseReference =>
      cases h
      cases h'
      rfl
    | typeReference =>
      obtain ⟨_, _, hkey⟩ := Option.map_eq_some_iff.mp h'
      cases h
      cases hkey
  | looseAnnotationUse =>
    cases e' with
    | looseAnnotationUse =>
      cases h
      cases h'
      rfl
    | annotationUse =>
      obtain ⟨_, _, hkey⟩ := Option.map_eq_some_iff.mp h'
      cases h
      cases hkey
  | valueParameter _ _ ih =>
    cases e' with | valueParameter =>
    obtain ⟨w, hw, hkey⟩ := Option.map_eq_some_iff.mp h
    obtain ⟨w', hw', hkey'⟩ := Option.map_eq_some_iff.mp h'
    subst hkey
    injection hkey' with hsymbol hparent
    obtain ⟨rfl, hsame⟩ := find_node_injective wf ih hw hw' hparent.symm
    cases hsame
    cases hsymbol
    rfl
  | typeReference _ _ _ ih =>
    obtain ⟨w, hw, hkey⟩ := Option.map_eq_some_iff.mp h
    subst hkey
    cases e' with
    | looseReference => cases h'
    | typeReference =>
      obtain ⟨w', hw', hkey'⟩ := Option.map_eq_some_iff.mp h'
      injection hkey' with htype hparent hindex
      obtain ⟨rfl, hsame⟩ := find_node_injective wf ih hw hw' (Option.some.inj hparent).symm
      cases hsame
      cases htype
      cases hindex
      rfl
  | annotationUse _ _ ih =>
    obtain ⟨w, hw, hkey⟩ := Option.map_eq_some_iff.mp h
    subst hkey
    cases e' with
    | looseAnnotationUse => cases h'
    | annotationUse =>
      obtain ⟨w', hw', hkey'⟩ := Option.map_eq_some_iff.mp h'
      injection hkey' with hannotation hparent
      obtain ⟨rfl, hsame⟩ := find_node_injective wf ih hw hw' (Option.some.inj hparent).symm
      cases hsame
      cases hannotation
      rfl
  | classifierReference _ _ ih | callableReference _ _ ih =>
    cases e' with | _ =>
    obtain ⟨w, hw, hkey⟩ := Option.map_eq_some_iff.mp h
    obtain ⟨w', hw', hkey'⟩ := Option.map_eq_some_iff.mp h'
    subst hkey
    injection hkey' with htype howner
    cases find_injective wf ih hw hw' howner.symm
    cases htype
    rfl
  | dynamicReference _ ih =>
    cases e' with | dynamicReference =>
    obtain ⟨w, hw, hkey⟩ := Option.map_eq_some_iff.mp h
    obtain ⟨w', hw', hkey'⟩ := Option.map_eq_some_iff.mp h'
    cases find_injective wf ih hw hw' (hkey.trans hkey'.symm)
    rfl
  | valueArgument _ _ ih =>
    cases e' with | valueArgument =>
    obtain ⟨w, hw, hkey⟩ := Option.map_eq_some_iff.mp h
    obtain ⟨w', hw', hkey'⟩ := Option.map_eq_some_iff.mp h'
    subst hkey
    injection hkey' with howner hsource
    cases find_injective wf ih hw hw' howner.symm
    cases hsource
    rfl

/-- In well-formed caches, entities of one handle are one entity. -/
theorem At.injective (wf : caches.WellFormed) {e e' : Entity kind} {h : Handle kind}
    (he : e.At caches h) (he' : e'.At caches h) : e = e' := by
  obtain ⟨w, hw, rfl⟩ := he
  obtain ⟨w', hw', hid⟩ := he'
  exact find_injective wf (keyIn_injective wf) hw hw' hid.symm

end Entity

/-! ## Nodes -/

/-- A node of the graph, told without handles. -/
structure NodeEntity where
  kind : NodeKind
  entity : Entity (.node kind)

abbrev Entity.node {kind : NodeKind} (e : Entity (.node kind)) : NodeEntity := ⟨kind, e⟩

namespace NodeEntity

variable {caches later : Caches}

def At (caches : Caches) (n : NodeEntity) (node : NodeId) : Prop :=
  ∃ h, n.entity.At caches h ∧ h.node = node

theorem At.entity {kind : NodeKind} {e : Entity (.node kind)} {h : Handle (.node kind)}
    (hat : e.node.At caches h.node) : e.At caches h := by
  obtain ⟨h', he, hnode⟩ := hat
  injection hnode with _ hindex
  rw [← show h' = h from congrArg Handle.mk hindex]
  exact he

theorem At.grows {n : NodeEntity} {node : NodeId} (hat : n.At caches node)
    (hgrows : caches.Grows later) : n.At later node := by
  obtain ⟨h, hh, hnode⟩ := hat
  exact ⟨h, hh.grows hgrows, hnode⟩

theorem At.injective (wf : caches.WellFormed) {n n' : NodeEntity} {node : NodeId}
    (hn : n.At caches node) (hn' : n'.At caches node) : n = n' := by
  obtain ⟨kind, e⟩ := n
  obtain ⟨kind', e'⟩ := n'
  obtain ⟨h, he, rfl⟩ := hn
  obtain ⟨h', he', hnode⟩ := hn'
  injection hnode with hkind hindex
  subst hkind
  have hsame : h' = h := congrArg Handle.mk hindex
  subst hsame
  exact congrArg (NodeEntity.mk _) (Entity.At.injective wf he he')

end NodeEntity

end SymbolGraph
