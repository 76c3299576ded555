import SymbolGraph.Proofs.Meaning.Field

/-!
# Sound sessions

A session over a table is sound if everything in it is as the table says: every wrapper holds
what the portrait of its entity shows, and every filled cell holds the meaning of its field.
This does not depend on how the session came to its state.
-/

namespace SymbolGraph

variable {world : World} {caches later : Caches} {kind : Kind} {s : SessionState ReturnTypes}

/-! ## Faithful wrappers -/

/-- The node that an entity hangs from, if its key says so. -/
def Entity.above : {kind : Kind} → Entity kind → Option NodeEntity
  | _, .getter receiver _ | _, .setter receiver _ => some (Entity.property receiver).node
  | _, .valueParameter _ parent | _, .typeReference _ parent _ => some parent.node
  | _, .classifierReference _ owner | _, .callableReference _ owner | _, .dynamicReference owner =>
    some owner.node
  | _, .annotationUse _ bearer => some bearer.node
  | _, .valueArgument owner _ => some owner.node
  | _, _ => none

/-- The node that a wrapper says it hangs from. -/
def Kind.above : (kind : Kind) → kind.Wrapper → Option NodeId
  | .node .getter, (w : GetterNode) => some w.receiver.node
  | .node .setter, (w : SetterNode) => some w.receiver.node
  | .node .valueParameter, (w : ValueParameterNode) => some w.parent
  | .node .typeReference, (w : TypeReference) => w.parent
  | .node .classifierReference, (w : ClassifierReference) => some w.owner.node
  | .node .callableReference, (w : CallableReference) => some w.owner.node
  | .node .dynamicReference, (w : DynamicReference) => some w.owner.node
  | .node .annotationUse, (w : AnnotationNode) => w.parent
  | .node .valueArgument, (w : ArgumentNode) => some w.owner.node
  | _, _ => none

/-- The wrapper holds what the portrait of the entity shows, and its handles lead to the entities in
the key of the entity. -/
structure Entity.Fits (world : World) (caches : Caches) (e : Entity kind) (w : kind.Wrapper) :
    Prop where
  portrait : e.portrait world = .ok (kind.blank w)
  above : View.node.option.Shows caches (kind.above w) e.above

theorem Entity.Fits.grows {e : Entity kind} {w : kind.Wrapper} (h : e.Fits world caches w)
    (hgrows : caches.Grows later) : e.Fits world later w :=
  ⟨h.portrait, View.node.option.grows h.above hgrows⟩

theorem GetterNode.receiver_at {receiver key : SymbolKey} {w : GetterNode}
    (h : (Entity.getter receiver key).Fits world caches w) :
    (Entity.property receiver).At caches w.receiver := by
  cases h.above with | some hat => exact hat.entity

theorem SetterNode.receiver_at {receiver key : SymbolKey} {w : SetterNode}
    (h : (Entity.setter receiver key).Fits world caches w) :
    (Entity.property receiver).At caches w.receiver := by
  cases h.above with | some hat => exact hat.entity

namespace View

/-- A wrapper and the portrait of its entity. -/
def portrait (e : Entity kind) : View kind.Wrapper kind.Wrapper where
  Shows caches w p := e.find caches = some w ∧ kind.blank w = p
  grows h hgrows := ⟨Entity.find_grows h.1 hgrows, h.2⟩

/-- A plan for a wrapper and the portrait of its entity. -/
def plan (e : Entity kind) : View (Handle kind → kind.Wrapper) kind.Wrapper where
  Shows caches build p := ∀ id, kind.idOf (build id) = id ∧ kind.blank (build id) = p ∧
    node.option.Shows caches (kind.above (build id)) e.above
  grows h hgrows := fun id => ⟨(h id).1, (h id).2.1, node.option.grows (h id).2.2 hgrows⟩

end View

/-- Every wrapper stands for an entity of the world. -/
structure Faithful (world : World) (caches : Caches) : Prop where
  wellFormed : caches.WellFormed
  cached : ∀ {kind : Kind} {key : kind.Key} {w : kind.Wrapper}, caches.lookup kind key = some w →
    ∃ e : Entity kind, e.keyIn caches = some key ∧ e.Fits world caches w

namespace Faithful

theorem empty : Faithful world {} := by
  refine ⟨.empty, ?_⟩
  intro kind key w hw
  rcases kind with (_ | _) | _ <;> simp [Caches.lookup, Caches.get, IdentityCache.lookup] at hw

theorem fits (h : Faithful world caches) {e : Entity kind} {w : kind.Wrapper}
    (hw : e.find caches = some w) : e.Fits world caches w := by
  obtain ⟨key, hkey, hlookup⟩ := Entity.find_eq_some.mp hw
  obtain ⟨e', hkey', hfits⟩ := h.cached hlookup
  rw [Entity.keyIn_injective h.wellFormed hkey hkey']
  exact hfits

theorem get_of_find (h : Faithful world caches) {e : Entity kind} {w : kind.Wrapper}
    (hw : e.find caches = some w) : (caches.get kind).get (kind.idOf w).index = some w := by
  obtain ⟨key, _, hlookup⟩ := Entity.find_eq_some.mp hw
  exact (h.wellFormed kind).get_of_lookup hlookup

/-- Every issued handle leads to an entity. -/
theorem exists_find (h : Faithful world caches) {slot : Nat} {w : kind.Wrapper}
    (hw : (caches.get kind).get slot = some w) : ∃ e : Entity kind, e.find caches = some w := by
  obtain ⟨key, hlookup⟩ := (h.wellFormed kind).exists_lookup hw
  obtain ⟨e, hkey, _⟩ := h.cached hlookup
  exact ⟨e, Entity.find_eq_some.mpr ⟨key, hkey, hlookup⟩⟩

end Faithful

/-! ## Sound states -/

namespace World

/-- The function has its return type settled before it is read. -/
def Settles (world : World) (function : SymbolKey) : Prop :=
  ∃ f : FunctionNode, (Entity.function function).portrait world = .ok f ∧
    f.needsSettling world.config = true

/-- The return types are those of the table, but some of the functions that have to be settled may be
settled already. -/
def Admits (world : World) (types : ReturnTypes) : Prop :=
  ∀ function,
    (types.known[function]? = world.table.returnTypes.known[function]? ∧
      types.deferred[function]? = world.table.returnTypes.deferred[function]?) ∨
    (world.Settles function ∧ types.known[function]? = world.settledType function ∧
      types.deferred[function]? = none)

end World

structure Sound (world : World) (s : SessionState ReturnTypes) : Prop where
  faithful : Faithful world s.caches
  filled : ∀ {cell : Cell} {v : cell.Value}, s.memo.get? cell = some v →
    ∃ (e : Entity cell.kind) (f : LazyField cell.kind cell.field) (b : cell.field.Sight),
      e.At s.caches ⟨cell.slot⟩ ∧ f.meaning world e = .ok b ∧ cell.field.view.Shows s.caches v b
  settled : world.Admits s.oracle

/-! ## Creating wrappers -/

/-- What holds of every old wrapper and of the one that may be built holds of every wrapper. -/
theorem SessionState.create_lookup {σ : Type} {s : SessionState σ} (wf : s.caches.WellFormed)
    {key : kind.Key} {build : Handle kind → kind.Wrapper}
    {P : (kind : Kind) → kind.Key → kind.Wrapper → Prop}
    (hold : ∀ {kind key w}, s.caches.lookup kind key = some w → P kind key w)
    (hnew : P kind key (build ⟨(s.caches.get kind).size⟩)) {other : Kind} {key' : other.Key}
    {w : other.Wrapper} (h : (s.create kind key build).2.caches.lookup other key' = some w) :
    P other key' w := by
  -- A wrapper of another kind or under another key is an old one.
  by_cases hkind : other = kind
  · subst hkind
    by_cases hkey : key' = key
    · subst hkey
      rw [Caches.lookup, Query.lookup_create] at h
      cases h
      cases hlookup : s.caches.lookup other key' with
      | some w =>
        rw [SessionState.create, IdentityCache.getOrCreate_of_lookup hlookup]
        exact hold hlookup
      | none =>
        rw [SessionState.create, IdentityCache.getOrCreate_of_missing hlookup]
        exact hnew
    · simp only [Caches.lookup, create, Caches.get_set_self] at h
      rw [(wf other).lookup_getOrCreate_of_ne _ hkey] at h
      exact hold h
  · simp only [Caches.lookup, create, Caches.get_set_of_ne _ _ hkind] at h
    exact hold h

namespace Sound

/-- The entity of the new wrapper is known by its key, and the wrapper fits it. -/
theorem create (h : Sound world s) {e : Entity kind} {key : kind.Key}
    (hkey : e.keyIn s.caches = some key) {build : Handle kind → kind.Wrapper}
    (hid : ∀ id, kind.idOf (build id) = id) (hfits : ∀ id, e.Fits world s.caches (build id)) :
    Sound world (s.create kind key build).2 := by
  have hgrows : s.caches.Grows (s.create kind key build).2.caches :=
    (s.create_grows key build).caches
  refine ⟨⟨h.faithful.wellFormed.create key hid, ?_⟩, ?_, h.settled⟩
  · have hold : ∀ {kind : Kind} {key' : kind.Key} {w : kind.Wrapper},
        s.caches.lookup kind key' = some w → ∃ e : Entity kind,
          e.keyIn (s.create _ key build).2.caches = some key' ∧
            e.Fits world (s.create _ key build).2.caches w := by
      intro kind key' w hw
      obtain ⟨e', hkey', hfits'⟩ := h.faithful.cached hw
      exact ⟨e', Entity.keyIn_grows hkey' hgrows, hfits'.grows hgrows⟩
    apply SessionState.create_lookup h.faithful.wellFormed hold
    exact ⟨e, Entity.keyIn_grows hkey hgrows, (hfits _).grows hgrows⟩
  · intro cell v hv
    obtain ⟨e', f, b, hat, hmeaning, hshows⟩ := h.filled hv
    exact ⟨e', f, b, hat.grows hgrows, hmeaning, cell.field.view.grows hshows hgrows⟩

theorem fill (h : Sound world s) {cell : Cell} {v : cell.Value} {e : Entity cell.kind}
    (hat : e.At s.caches ⟨cell.slot⟩) {f : LazyField cell.kind cell.field} {b : cell.field.Sight}
    (hmeaning : f.meaning world e = .ok b) (hshows : cell.field.view.Shows s.caches v b) :
    Sound world (s.fill cell v).2 := by
  refine ⟨?_, ?_, ?_⟩
  · rw [s.fill_caches]
    exact h.faithful
  · rw [s.fill_caches]
    apply SessionState.fill_get? h.filled
    exact ⟨e, f, b, hat, hmeaning, hshows⟩
  · rw [s.fill_oracle]
    exact h.settled

/-- A filled cell of the wrapper of an entity holds what the field of the entity means. -/
theorem meaning_of_get? (h : Sound world s) {field : Field} (f : LazyField kind field)
    {e : Entity kind} {w : kind.Wrapper} (hw : e.find s.caches = some w) {v : field.Value}
    (hv : s.memo.get? ((kind.idOf w).cell field) = some v) :
    ∃ b, f.meaning world e = .ok b ∧ field.view.Shows s.caches v b := by
  obtain ⟨e', f', b, hat, hmeaning, hshows⟩ := h.filled hv
  have hsame : e' = e := Entity.At.injective h.faithful.wellFormed hat (Entity.at_of_find hw)
  subst hsame
  rw [LazyField.unique f' f] at hmeaning
  exact ⟨b, hmeaning, hshows⟩

theorem start (world : World) : Sound world (.start world.table.returnTypes) where
  faithful := .empty
  filled hv := by simp [SessionState.start] at hv
  settled _ := .inl ⟨rfl, rfl⟩

end Sound

end SymbolGraph
