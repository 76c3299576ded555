import SymbolGraph.Graph.Place
import SymbolGraph.Proofs.Meaning.Sound
import SymbolGraph.Proofs.Session.Sustains

/-!
# Linked sessions

What wrappers and cells say of other wrappers, in any session, whatever its front end answers. A
reference takes its origin from a node that was there before it. The wrappers in a cell are wrappers
of the session. Where a handle comes from outside and the session does not look at it, it leads to a
node only if the caller is honest.
-/

namespace SymbolGraph

variable {σ α : Type} {honest : Prop} {caches later : Caches} {kind : Kind}

/-! ## Links between wrappers -/

/-- A reference without an owner was written nowhere. Any other has the origin of its owner; and the
reference that the owner belongs to, if it does, came first. -/
inductive TypeReference.Rooted (caches : Caches) (r : TypeReference) : Prop
  | nowhere : r.parent = none → r.origin = .synthetic → Rooted caches r
  | under {node : NodeId} {owner : node.kind.Wrapper} : r.parent = some node →
    caches.Issued node.handle owner → r.origin = node.kind.origin owner →
    (∀ above, node.kind.reference? owner = some above → above.index < r.id.index) →
    Rooted caches r

theorem TypeReference.Rooted.grows {r : TypeReference} (h : r.Rooted caches)
    (hgrows : caches.Grows later) : r.Rooted later := by
  cases h with
  | nowhere hparent horigin => exact .nowhere hparent horigin
  | under hparent howner horigin hbelow => exact .under hparent (howner.grows hgrows) horigin hbelow

/-- A reference with this handle has this origin. -/
def Caches.Lends (caches : Caches) (owner : TypeReferenceId) (origin : Origin) : Prop :=
  ∃ r : TypeReference, caches.Issued owner r ∧ origin = r.origin

/-- The wrapper hangs from a node of the session. References and arguments are only made for such
nodes. -/
def Kind.Hangs (honest : Prop) (caches : Caches) : (kind : Kind) → kind.Wrapper → Prop
  | .node .typeReference, (w : TypeReference) => w.Rooted caches
  | .node .classifierReference, (w : ClassifierReference) => caches.Lends w.owner w.origin
  | .node .callableReference, (w : CallableReference) => caches.Lends w.owner w.origin
  | .node .dynamicReference, (w : DynamicReference) => caches.Lends w.owner w.origin
  | .node .valueArgument, (w : ArgumentNode) => w.owner.Issued caches
  | kind, w => honest → ∀ node, kind.above w = some node → node.Issued caches

theorem Kind.Hangs.grows {w : kind.Wrapper} (h : kind.Hangs honest caches w)
    (hgrows : caches.Grows later) : kind.Hangs honest later w := by
  have hlends {owner : TypeReferenceId} {origin : Origin} (h : caches.Lends owner origin) :
      later.Lends owner origin := by
    obtain ⟨r, hr, horigin⟩ := h
    exact ⟨r, hr.grows hgrows, horigin⟩
  have habove (h : honest → ∀ node, kind.above w = some node → node.Issued caches) :
      honest → ∀ node, kind.above w = some node → node.Issued later :=
    fun hhonest node hnode => (h hhonest node hnode).grows hgrows
  rcases kind with (_ | _) | _
  case node.typeReference => exact TypeReference.Rooted.grows h hgrows
  case node.classifierReference | node.callableReference | node.dynamicReference => exact hlends h
  case node.valueArgument => exact Handle.Issued.grows h hgrows
  all_goals exact habove h

/-- If the caller is honest, whatever a wrapper hangs from is a node of the session. -/
theorem Kind.Hangs.above {w : kind.Wrapper} (h : kind.Hangs True caches w) {node : NodeId}
    (hnode : kind.above w = some node) : node.Issued caches := by
  have hlends {owner : TypeReferenceId} {origin : Origin} (h : caches.Lends owner origin)
      (hnode : some owner.node = some node) : node.Issued caches := by
    obtain ⟨r, hr, _⟩ := h
    cases hnode
    exact ⟨r, hr⟩
  rcases kind with (_ | _) | _
  case node.typeReference =>
    cases h with
    | nowhere hparent _ =>
      rw [Kind.above, hparent] at hnode
      cases hnode
    | under hparent howner _ _ =>
      rw [Kind.above, hparent] at hnode
      cases hnode
      exact ⟨_, howner⟩
  case node.classifierReference | node.callableReference | node.dynamicReference =>
    exact hlends h hnode
  case node.valueArgument =>
    cases hnode
    exact h
  all_goals exact h trivial node hnode

/-! ## Wrappers in answers -/

def Declaration.Issued (caches : Caches) : Declaration → Prop
  | classLike w => caches.Issued w.id w
  | function w => caches.Issued w.id w
  | property w => caches.Issued w.id w
  | typeParameter w => caches.Issued w.id w

theorem Declaration.Issued.grows {d : Declaration} (h : d.Issued caches)
    (hgrows : caches.Grows later) : d.Issued later := by
  cases d <;> exact (hgrows _).get h

theorem Declaration.Issued.node {d : Declaration} (h : d.Issued caches) : d.node.Issued caches := by
  cases d <;> exact Caches.Issued.node h

def ReferenceElement.Issued (caches : Caches) : ReferenceElement → Prop
  | classifier w => caches.Issued w.id w
  | callable w => caches.Issued w.id w
  | dynamic w => caches.Issued w.id w

theorem ReferenceElement.Issued.grows {e : ReferenceElement} (h : e.Issued caches)
    (hgrows : caches.Grows later) : e.Issued later := by
  cases e <;> exact (hgrows _).get h

namespace Fact

/-- The wrapper is one of the session. -/
def known (kind : Kind) : Fact kind.Wrapper where
  Holds caches w := caches.Issued (kind.idOf w) w
  grows h hgrows := h.grows hgrows

def node : Fact NodeId where
  Holds caches node := node.Issued caches
  grows h hgrows := h.grows hgrows

def declaration : Fact Declaration where
  Holds caches d := d.Issued caches
  grows h hgrows := h.grows hgrows

def element : Fact ReferenceElement where
  Holds caches e := e.Issued caches
  grows h hgrows := h.grows hgrows

def argument (F : Fact α) : Fact (TypeArgument α) where
  Holds caches argument := ∀ a ∈ argument.type?, F.Holds caches a
  grows h hgrows := fun a ha => F.grows (h a ha) hgrows

/-- The origin is that of a node of the session. The reference that the node belongs to, if it does,
is there as well. -/
def originOf (node : NodeId) : Fact Origin where
  Holds caches origin := ∃ owner, caches.Issued node.handle owner ∧
    origin = node.kind.origin owner ∧ ∀ above, node.kind.reference? owner = some above →
      above.index < (caches.get (.node .typeReference)).size
  grows := fun ⟨owner, howner, horigin, hbelow⟩ hgrows =>
    ⟨owner, howner.grows hgrows, horigin, fun above habove =>
      Nat.lt_of_lt_of_le (hbelow above habove) (hgrows _).size_le⟩

/-- The wrapper that is made under the next handle carries it, and hangs from a node. -/
def plan (honest : Prop) (kind : Kind) : Fact (Handle kind → kind.Wrapper) where
  Holds caches build := ∀ id, kind.idOf (build id) = id ∧
    ((caches.get kind).size ≤ id.index → kind.Hangs honest caches (build id))
  grows h hgrows := fun id => ⟨(h id).1, fun hid =>
    ((h id).2 (Nat.le_trans (hgrows kind).size_le hid)).grows hgrows⟩

end Fact

/-- The value of a field names nodes of the session only. -/
def Field.fact : (field : Field) → Fact field.Value
  | parent => .option .node
  | qualifiedName => .any
  | annotations => .each (.known (.node .annotationUse))
  | modifiers => .any
  | docString => .any
  | receiverType | annotationType => .option (.known (.node .typeReference))
  | returnType | type => .known (.node .typeReference)
  | valueParameters => .each (.known (.node .valueParameter))
  | typeParameters => .each (.known (.node .typeParameter))
  | superTypes | bounds | functionParameters => .each (.known (.node .typeReference))
  | getter => .option (.known (.node .getter))
  | setter => .option (.known (.node .setter))
  | parameter => .known (.node .valueParameter)
  | element => .option .element
  | typeArguments => .each (.argument (.known (.node .typeReference)))
  | arguments => .each (.known (.node .valueArgument))
  | declaration => .declaration

/-! ## The law -/

structure Linked (honest : Prop) (s : SessionState σ) : Prop where
  wellFormed : s.caches.WellFormed
  hangs : ∀ (kind : Kind) {key : kind.Key} {w : kind.Wrapper}, s.caches.lookup kind key = some w →
    kind.Hangs honest s.caches w
  held : ∀ {cell : Cell} {v : cell.Value}, s.memo.get? cell = some v →
    cell.field.fact.Holds s.caches v

namespace Linked

variable {s t : SessionState σ}

theorem start (oracle : σ) : Linked honest (.start oracle) where
  wellFormed := .empty
  hangs kind key w hw := by
    rcases kind with (_ | _) | _ <;>
      simp [SessionState.start, Caches.lookup, Caches.get, IdentityCache.lookup] at hw
  held hv := by simp [SessionState.start] at hv

theorem of_sameSession (h : Linked honest s) (hsame : s.SameSession t) : Linked honest t where
  wellFormed := hsame.caches ▸ h.wellFormed
  hangs kind key w hw := by
    rw [hsame.caches] at hw ⊢
    exact h.hangs kind hw
  held {cell v} hv := by
    rw [hsame.memo] at hv
    rw [hsame.caches]
    exact h.held hv

theorem hangs_of_issued (h : Linked honest s) {handle : Handle kind} {w : kind.Wrapper}
    (hw : s.caches.Issued handle w) : kind.Hangs honest s.caches w := by
  obtain ⟨key, hkey⟩ := (h.wellFormed kind).exists_lookup hw
  exact h.hangs kind hkey

/-- The reference that a node shares its place with is one of the session. -/
theorem exists_reference (h : Linked honest s) {kind : NodeKind} {handle : Handle (.node kind)}
    {w : kind.Wrapper} (hw : s.caches.Issued handle w) {above : TypeReferenceId}
    (habove : kind.reference? w = some above) : ∃ r : TypeReference, s.caches.Issued above r := by
  have hhangs := h.hangs_of_issued hw
  cases kind
  case typeReference =>
    cases habove
    have hid : TypeReference.id w = handle := h.wellFormed.idOf_eq hw
    exact ⟨w, hid ▸ hw⟩
  case classifierReference | callableReference | dynamicReference =>
    cases habove
    obtain ⟨r, hr, _⟩ := hhangs
    exact ⟨r, hr⟩
  all_goals cases habove

theorem create (h : Linked honest s) {key : kind.Key} {build : Handle kind → kind.Wrapper}
    (hplan : (Fact.plan honest kind).Holds s.caches build) :
    Linked honest (s.create kind key build).2 := by
  have hgrows : s.caches.Grows (s.create kind key build).2.caches :=
    (s.create_grows key build).caches
  refine ⟨h.wellFormed.create key fun id => (hplan id).1, ?_, ?_⟩
  · have hold {kind : Kind} {key' : kind.Key} {w : kind.Wrapper}
        (hw : s.caches.lookup kind key' = some w) :
        kind.Hangs honest (s.create _ key build).2.caches w :=
      (h.hangs kind hw).grows hgrows
    apply SessionState.create_lookup h.wellFormed hold
    -- The new wrapper has the next number, which no older one has.
    exact ((hplan _).2 (Nat.le_refl _)).grows hgrows
  · intro cell v hv
    exact cell.field.fact.grows (h.held hv) hgrows

theorem fill (h : Linked honest s) {cell : Cell} {v : cell.Value}
    (hfact : cell.field.fact.Holds s.caches v) : Linked honest (s.fill cell v).2 := by
  refine ⟨?_, ?_, ?_⟩
  · rw [s.fill_caches]
    exact h.wellFormed
  · rw [s.fill_caches]
    exact h.hangs
  · rw [s.fill_caches]
    intro other u hu
    exact SessionState.fill_get? (P := fun cell v => cell.field.fact.Holds s.caches v) h.held hfact hu

end Linked

end SymbolGraph
