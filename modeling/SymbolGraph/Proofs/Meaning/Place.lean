import Mathlib.Data.List.Nodup
import SymbolGraph.Proofs.Meaning.Answers

/-!
# What places mean

A place is looked for on the way up from a reference. The references on this way are all
different wrappers, so the number of references is never too small a bound for it.
-/

namespace SymbolGraph

variable {world : World} {caches : Caches} {kind : Kind}

/-! ## Places of entities -/

namespace World

variable (world : World)

def locate : Option Position → Location
  | none => .absent
  | some position =>
    match world.peek (.file position.file) with
    | .error _ => .absent
    | .ok file =>
      match world.glance (.lineCol position.file position.offset) with
      | none => .absent
      | some place => .ofLineCol file.path place

def symbolLocation (symbol : SymbolRecord) : Location :=
  world.locate (symbol.source.map Source.position)

end World

/-- The place of a node that has one of its own, given its portrait. -/
def NodeKind.ownPlace (world : World) : (kind : NodeKind) → kind.Wrapper → Location
  | .file, (w : FileNode) => .file w.file.path 1 1
  | .classLike, (w : ClassNode) => world.symbolLocation w.symbol
  | .function, (w : FunctionNode) => world.symbolLocation w.symbol
  | .property, (w : PropertyNode) => world.symbolLocation w.symbol
  | .getter, (w : GetterNode) => world.symbolLocation w.symbol
  | .setter, (w : SetterNode) => world.symbolLocation w.symbol
  | .valueParameter, (w : ValueParameterNode) => world.symbolLocation w.symbol
  | .typeParameter, (w : TypeParameterNode) => world.symbolLocation w.symbol
  | .annotationUse, (w : AnnotationNode) => world.locate w.record.position
  | .valueArgument, (w : ArgumentNode) => world.locate w.position
  | .typeReference, _ | .classifierReference, _ | .callableReference, _ | .dynamicReference, _ =>
    .absent

namespace Entity

def ownLocation (world : World) {kind : NodeKind} (e : Entity (.node kind)) : Location :=
  match e.portrait world with
  | .ok p => kind.ownPlace world p
  | .error _ => .absent

/-- The position of an entry in the supertype list of a class or the bound list of a type
parameter. -/
def entryPosition (world : World) {kind : NodeKind} (owner : Entity (.node kind)) (entry : Nat) :
    Option Position :=
  match kind, owner.portrait world with
  | .classLike, .ok (p : ClassNode) => do (← p.symbol.source).supertypeEntries[entry]?
  | .typeParameter, .ok (p : TypeParameterNode) => do (← p.symbol.source).boundEntries[entry]?
  | _, _ => none

/-- The place of an entity, found on the way up. -/
def location (world : World) : {kind : Kind} → Entity kind → Location
  | _, .typeReference _ parent index =>
    if 0 ≤ index then world.locate (parent.entryPosition world index.toNat)
    else parent.location world
  | _, .looseReference .. => .absent
  | _, .classifierReference _ owner => owner.location world
  | _, .callableReference _ owner => owner.location world
  | _, .dynamicReference owner => owner.location world
  | .node _, e => e.ownLocation world
  | .resolvedType, _ => .absent

/-- The references on the way up, up to the first node that is neither a reference nor an element. -/
def references : {kind : Kind} → Entity kind → List (Entity (.node .typeReference))
  | _, .typeReference type parent index => .typeReference type parent index :: parent.references
  | _, .looseReference type index => [.looseReference type index]
  | _, .classifierReference _ owner => owner.references
  | _, .callableReference _ owner => owner.references
  | _, .dynamicReference owner => owner.references
  | _, _ => []

/-- The way up from a reference on the way is no longer. -/
theorem length_references_le {e : Entity kind} {r : Entity (.node .typeReference)}
    (h : r ∈ e.references) : r.references.length ≤ e.references.length := by
  induction e with
  | typeReference type parent index ih =>
    rcases List.mem_cons.mp h with rfl | h
    · exact Nat.le_refl _
    · exact Nat.le_succ_of_le (ih h)
  | looseReference =>
    cases List.mem_singleton.mp h
    exact Nat.le_refl _
  | classifierReference _ _ ih | callableReference _ _ ih => exact ih h
  | dynamicReference _ ih => exact ih h
  | _ => cases h

/-- No reference is met twice on the way up. -/
theorem nodup_references (e : Entity kind) : e.references.Nodup := by
  induction e with
  | typeReference type parent index ih =>
    refine List.nodup_cons.mpr ⟨fun h => ?_, ih⟩
    exact absurd (length_references_le h) (Nat.not_succ_le_self _)
  | looseReference => exact List.nodup_singleton _
  | classifierReference _ _ ih | callableReference _ _ ih => exact ih
  | dynamicReference _ ih => exact ih
  | _ => exact List.nodup_nil

theorem find_references {e : Entity kind} {w : kind.Wrapper} (hw : e.find caches = some w)
    {r : Entity (.node .typeReference)} (h : r ∈ e.references) : ∃ v, r.find caches = some v := by
  induction e with
  | typeReference type parent index ih =>
    rcases List.mem_cons.mp h with rfl | h
    · exact ⟨w, hw⟩
    · obtain ⟨key, hkey, _⟩ := find_eq_some.mp hw
      obtain ⟨v, hv, _⟩ := Option.map_eq_some_iff.mp hkey
      exact ih hv h
  | looseReference =>
    cases List.mem_singleton.mp h
    exact ⟨w, hw⟩
  | classifierReference _ _ ih | callableReference _ _ ih | dynamicReference _ ih =>
    obtain ⟨key, hkey, _⟩ := find_eq_some.mp hw
    obtain ⟨v, hv, _⟩ := Option.map_eq_some_iff.mp hkey
    exact ih hv h
  | _ => cases h

/-- There are at least as many references in the session as on the way up. -/
theorem length_references_le_size (wf : caches.WellFormed) {e : Entity kind} {w : kind.Wrapper}
    (hw : e.find caches = some w) : e.references.length ≤ caches.typeReferences.size := by
  let slot (r : Entity (.node .typeReference)) : Nat :=
    ((r.find caches).map fun v => (TypeReference.id v).index).getD 0
  have hslot {r : Entity (.node .typeReference)} {v : TypeReference} (hv : r.find caches = some v) :
      slot r = v.id.index := by
    simp only [slot, hv, Option.map_some, Option.getD_some]
  -- Different references have different slots, as a handle leads to one entity.
  have hnodup : (e.references.map slot).Nodup := by
    refine List.Nodup.map_on ?_ (nodup_references e)
    intro r hr r' hr' hsame
    obtain ⟨v, hv⟩ := find_references hw hr
    obtain ⟨v', hv'⟩ := find_references hw hr'
    rw [hslot hv, hslot hv'] at hsame
    have hid : v.id = v'.id := congrArg Handle.mk hsame
    exact At.injective wf ⟨v, hv, rfl⟩ ⟨v', hv', hid.symm⟩
  have hsubset : e.references.map slot ⊆ List.range caches.typeReferences.size := by
    intro i hi
    obtain ⟨r, hr, rfl⟩ := List.mem_map.mp hi
    obtain ⟨v, hv⟩ := find_references hw hr
    rw [hslot hv, List.mem_range]
    obtain ⟨key, _, hlookup⟩ := find_eq_some.mp hv
    exact IdentityCache.get_eq_some_lt ((wf (.node .typeReference)).get_of_lookup hlookup)
  have hle := hnodup.length_le_of_subset hsubset
  simpa using hle

end Entity

/-! ## Looking for places -/

theorem Answers.find? {e : Entity kind} {h : Handle kind} (hat : e.At caches h) :
    Answers world caches (View.wrapper kind).option (Query.find? h) (.ok (some e)) := by
  intro s hs hgrows
  obtain ⟨w, hw, rfl⟩ := hat.grows hgrows
  have hrun := Query.find?_apply world.session s (kind.idOf w)
  rw [hs.faithful.get_of_find hw] at hrun
  rw [Action.after_of_ok hrun, hrun]
  exact ⟨hs, .refl _, .ok (.some hw)⟩

theorem Query.locate_answers (position : Option Position) :
    Answers world caches .plain (locate position) (.ok (world.locate position)) := by
  cases position with
  | none => exact .pure rfl
  | some position =>
    rw [World.locate]
    refine .bind_ok (.peek (.file position.file)) ?_
    rintro file later _ _ rfl
    cases world.peek (.file position.file) with
    | error => exact .pure rfl
    | ok file =>
      refine .bind_ok (.glance (.lineCol position.file position.offset)) ?_
      rintro place later _ _ rfl
      cases world.glance (.lineCol position.file position.offset) <;> exact .pure rfl

theorem NodeKind.ownLocation_answers (kind : NodeKind) (w : kind.Wrapper) :
    Answers world caches .plain (kind.ownLocation w)
      (.ok (kind.ownPlace world ((Kind.node kind).blank w))) := by
  cases kind
  case classLike | function | property | getter | setter | valueParameter | typeParameter
    | annotationUse | valueArgument => exact Query.locate_answers _
  all_goals exact .pure rfl

theorem NodeId.entryPosition_answers {n : NodeEntity} {node : NodeId} (hat : n.At caches node)
    (entry : Nat) :
    Answers world caches .plain (node.entryPosition entry)
      (.ok (n.entity.entryPosition world entry)) := by
  obtain ⟨kind, e⟩ := n
  obtain ⟨h, hat, rfl⟩ := hat
  cases kind
  case classLike | typeParameter =>
    refine .bind_ok (.find? hat) ?_
    intro owner later hgrows hfaithful howner
    cases howner with | some hw =>
    have hportrait : e.portrait world = _ := (hfaithful.fits hw).portrait
    simp only [Entity.entryPosition, hportrait]
    exact .pure rfl
  all_goals exact .pure rfl

/-- A node has a place of its own, or it shares its place with a reference. -/
theorem NodeKind.reference_cases {kind : NodeKind} {e : Entity (.node kind)} {w : kind.Wrapper}
    (hfaithful : Faithful world caches) (hw : e.find caches = some w) :
    (kind.reference? w = none ∧ e.location world = kind.ownPlace world ((Kind.node kind).blank w)) ∨
    ∃ id, kind.reference? w = some id ∧ ∃ r : Entity (.node .typeReference), r.At caches id ∧
      e.location world = r.location world ∧ e.references = r.references := by
  have hfits := hfaithful.fits hw
  have hown : e.ownLocation world = kind.ownPlace world ((Kind.node kind).blank w) := by
    rw [Entity.ownLocation, hfits.portrait]
  cases kind
  case typeReference => exact .inr ⟨_, rfl, e, ⟨w, hw, rfl⟩, rfl, rfl⟩
  case classifierReference | callableReference | dynamicReference =>
    cases e
    cases hfits.above with | some hat =>
    exact .inr ⟨_, rfl, _, hat.entity, rfl, rfl⟩
  all_goals cases e <;> exact .inl ⟨rfl, hown⟩

theorem TypeReference.locationWithin_answers {steps : Nat} {e : Entity (.node .typeReference)}
    {w : TypeReference} (hw : e.find caches = some w) (hsteps : e.references.length ≤ steps) :
    Answers world caches .plain (w.locationWithin steps) (.ok (e.location world)) := by
  induction steps generalizing caches e w with
  | zero => cases e <;> cases hsteps
  | succ steps ih =>
    refine .of_faithful fun hgrows hfaithful => ?_
    have hfits := hfaithful.fits (Entity.find_grows hw hgrows)
    have habove : View.node.option.Shows _ w.parent e.above := hfits.above
    rw [locationWithin]
    cases e with
    | looseReference type index =>
      generalize w.parent = node at habove
      cases habove
      exact .pure rfl
    -- Each step up leaves one reference behind.
    | @typeReference type kind parent index =>
      have hsteps : parent.references.length ≤ steps := Nat.le_of_succ_le_succ hsteps
      have hindex : w.index = index := by
        obtain ⟨p, _, hportrait⟩ := Meaning.bind_eq_ok hfits.portrait
        injection hportrait with hsame
        exact (congrArg TypeReference.index hsame).symm
      generalize w.parent = node at habove
      cases habove with | some hat =>
      obtain ⟨h, hat, rfl⟩ := hat
      simp only [Entity.location, hindex]
      split
      · refine .bind_ok (NodeId.entryPosition_answers ⟨h, hat, rfl⟩ _) ?_
        rintro position later _ _ rfl
        exact Query.locate_answers _
      · refine .bind_ok (.find? hat) ?_
        intro owner later hgrows hfaithful howner
        cases howner with | some howner =>
        rcases NodeKind.reference_cases hfaithful howner with
          ⟨hnone, hown⟩ | ⟨id, hid, r, hr, hplace, hreferences⟩
        · simp only [Handle.node, hnone, hown]
          exact NodeKind.ownLocation_answers kind _
        · simp only [Handle.node, hid, hplace]
          refine .bind_ok (.find? hr) ?_
          intro above later _ _ habove
          cases habove with | some habove =>
          exact ih habove (hreferences ▸ hsteps)

theorem NodeKind.location_answers {kind : NodeKind} {e : Entity (.node kind)} {w : kind.Wrapper}
    (hw : e.find caches = some w) :
    Answers world caches .plain (kind.location w) (.ok (e.location world)) := by
  refine .of_faithful fun hgrows hfaithful => ?_
  rcases NodeKind.reference_cases hfaithful (Entity.find_grows hw hgrows) with
    ⟨hnone, hown⟩ | ⟨id, hid, r, hr, hplace, _⟩
  · rw [NodeKind.location, hnone, hown]
    exact NodeKind.ownLocation_answers kind w
  · rw [NodeKind.location, hid, hplace]
    refine .bind_ok (.find? hr) ?_
    intro reference later _ _ hreference
    cases hreference with | some hreference =>
    -- The bound is the number of references at the time of asking.
    intro s hs hgrows
    have hreference := Entity.find_grows hreference hgrows
    have hle := Entity.length_references_le_size hs.faithful.wellFormed hreference
    exact TypeReference.locationWithin_answers hreference (Nat.le_succ_of_le hle) s hs (.refl _)

end SymbolGraph
