import SymbolGraph.Proofs.Linked.Run

/-!
# Where references are

A reference has the origin of its owner, and unless it is an entry of a list it has its place as well.
So the place of a reference is found on the way up, which is finite, since every reference came after
the one above it. All this holds whatever handles the session is given.
-/

namespace SymbolGraph

variable {σ : Type} {session : Session σ} {honest : Prop} {caches : Caches} {s : SessionState σ}

/-! ## The way up -/

/-- Type references and their elements. -/
def NodeKind.isReference : NodeKind → Bool
  | typeReference | classifierReference | callableReference | dynamicReference => true
  | _ => false

/-- Whether a node has the place of the node above it. -/
def NodeKind.sharesPlace : (kind : NodeKind) → kind.Wrapper → Bool
  | .typeReference, (w : TypeReference) => w.index < 0
  | .classifierReference, _ | .callableReference, _ | .dynamicReference, _ => true
  | _, _ => false

/-- The first node on the way up from a node that has a place of its own. There is none if the way
ends at a reference without an owner. -/
inductive NodeId.Anchored (caches : Caches) : NodeId → Option NodeId → Prop
  | here {node : NodeId} {w : node.kind.Wrapper} : caches.Issued node.handle w →
    node.kind.sharesPlace w = false → Anchored caches node (some node)
  | under {node above : NodeId} {w : node.kind.Wrapper} {anchor : Option NodeId} :
    caches.Issued node.handle w → node.kind.sharesPlace w = true →
    (Kind.node node.kind).above w = some above → Anchored caches above anchor →
    Anchored caches node anchor
  | nowhere {node : NodeId} {w : node.kind.Wrapper} : caches.Issued node.handle w →
    node.kind.sharesPlace w = true → (Kind.node node.kind).above w = none →
    Anchored caches node none

theorem NodeId.Anchored.unique {node : NodeId} {anchor other : Option NodeId}
    (h : node.Anchored caches anchor) (h' : node.Anchored caches other) : anchor = other := by
  induction h with
  | here hw hown =>
    cases h' with
    | here => rfl
    | under hw' hshares | nowhere hw' hshares =>
      cases Option.some.inj (hw.symm.trans hw')
      cases hown.symm.trans hshares
  | under hw hshares habove _ ih =>
    cases h' with
    | here hw' hown =>
      cases Option.some.inj (hw.symm.trans hw')
      cases hown.symm.trans hshares
    | under hw' _ habove' hanchored =>
      cases Option.some.inj (hw.symm.trans hw')
      cases Option.some.inj (habove.symm.trans habove')
      exact ih hanchored
    | nowhere hw' _ hnone =>
      cases Option.some.inj (hw.symm.trans hw')
      cases habove.symm.trans hnone
  | nowhere hw hshares hnone =>
    cases h' with
    | here hw' hown =>
      cases Option.some.inj (hw.symm.trans hw')
      cases hown.symm.trans hshares
    | under hw' _ habove =>
      cases Option.some.inj (hw.symm.trans hw')
      cases habove.symm.trans hnone
    | nowhere => rfl

theorem NodeKind.sharesPlace_of_reference?_eq_none {kind : NodeKind} {w : kind.Wrapper}
    (h : kind.reference? w = none) : kind.sharesPlace w = false := by
  cases kind <;> first | rfl | cases h

/-- A node is anchored where the reference is that it belongs to. -/
theorem Linked.anchored_of_reference? (hs : Linked honest s) {node : NodeId}
    {w : node.kind.Wrapper} (hw : s.caches.Issued node.handle w) {above : TypeReferenceId}
    (habove : node.kind.reference? w = some above) {anchor : Option NodeId}
    (h : above.node.Anchored s.caches anchor) : node.Anchored s.caches anchor := by
  have hid := hs.wellFormed.idOf_eq hw
  obtain ⟨kind, index⟩ := node
  cases kind
  case typeReference =>
    cases habove
    have hid : TypeReference.id w = ⟨index⟩ := hid
    rwa [hid] at h
  case classifierReference | callableReference | dynamicReference =>
    cases habove
    exact .under hw rfl rfl h
  all_goals cases habove

/-! ## Places -/

/-- The place of a node, if there is a node. -/
def Query.locationOf (node : Option NodeId) : Query σ Location :=
  node.elim (return .absent) NodeId.location

namespace NodeId

variable {node : NodeId} {w : node.kind.Wrapper}

theorem location_of_issued (hw : s.caches.Issued node.handle w) :
    node.location session s = node.kind.location w session s :=
  Action.bind_of_ok (Query.resolve_of_get session hw) _

theorem location_of_own (session : Session σ) (hw : s.caches.Issued node.handle w)
    (h : node.kind.reference? w = none) :
    node.location session s = node.kind.ownLocation w session s := by
  rw [location_of_issued hw, NodeKind.location, h]

theorem location_of_reference? (hw : s.caches.Issued node.handle w) {above : TypeReferenceId}
    (habove : node.kind.reference? w = some above) {r : TypeReference}
    (hr : s.caches.Issued above r) :
    node.location session s =
      r.locationWithin (s.caches.typeReferences.size + 1) session s := by
  rw [location_of_issued hw, NodeKind.location, habove]
  exact Action.bind_of_ok (Query.find?_of_issued hr) _

end NodeId

/-- Where the entry of a supertype or bound list stands that a reference is. -/
def TypeReference.entry? (caches : Caches) (r : TypeReference) : Option Position :=
  match r.parent with
  | some ⟨.classLike, index⟩ =>
    (caches.classes.get index).bind fun c : ClassNode =>
      c.symbol.source.bind fun source => source.supertypeEntries[r.index.toNat]?
  | some ⟨.typeParameter, index⟩ =>
    (caches.typeParameters.get index).bind fun p : TypeParameterNode =>
      p.symbol.source.bind fun source => source.boundEntries[r.index.toNat]?
  | _ => none

theorem TypeReference.locationWithin_of_entry {r : TypeReference} (h : 0 ≤ r.index) (steps : Nat) :
    r.locationWithin (steps + 1) session s = Query.locate (r.entry? s.caches) session s := by
  rw [locationWithin, entry?]
  cases r.parent with
  | none => rfl
  | some parent =>
    simp only [if_pos h]
    obtain ⟨kind, index⟩ := parent
    cases kind <;> rfl

/-- The way up from a reference leads to what it is anchored at, before the steps run out. -/
theorem Linked.locationWithin_anchored (session : Session σ) (hs : Linked honest s) {steps : Nat} {r : TypeReference}
    (hr : s.caches.Issued r.id r) (hsteps : r.id.index < steps) :
    ∃ anchor, r.id.node.Anchored s.caches anchor ∧
      r.locationWithin steps session s = Query.locationOf anchor session s := by
  -- The reference further up has a smaller number, so one step less suffices for it.
  induction steps generalizing r with
  | zero => cases hsteps
  | succ steps ih =>
    by_cases hindex : 0 ≤ r.index
    · have hown : NodeKind.typeReference.sharesPlace r = false := by
        simp [NodeKind.sharesPlace, hindex]
      refine ⟨some r.id.node, .here hr hown, ?_⟩
      have hlocation : r.id.node.location session s = _ := NodeId.location_of_reference? hr rfl hr
      rw [TypeReference.locationWithin_of_entry hindex] at hlocation ⊢
      exact hlocation.symm
    · have hshares : NodeKind.typeReference.sharesPlace r = true := by
        simpa [NodeKind.sharesPlace] using hindex
      cases hs.hangs_of_issued hr with
      | nowhere hparent _ =>
        refine ⟨none, .nowhere hr hshares hparent, ?_⟩
        rw [TypeReference.locationWithin, hparent]
        rfl
      | @under node owner hparent howner _ hbelow =>
        rw [TypeReference.locationWithin, hparent]
        simp only [if_neg hindex]
        rw [Action.bind_of_ok (Query.find?_of_issued howner)]
        cases habove : node.kind.reference? owner with
        | none =>
          -- The owner is no reference, so the way ends there.
          have hown := NodeKind.sharesPlace_of_reference?_eq_none habove
          refine ⟨some node, .under hr hshares hparent (.here howner hown), ?_⟩
          have hplace := NodeId.location_of_own session howner habove
          simp only [habove]
          exact hplace.symm
        | some above =>
          obtain ⟨next, hnext⟩ := hs.exists_reference howner habove
          have hid : next.id = above := hs.wellFormed.idOf_eq hnext
          subst hid
          have hlt : next.id.index < steps := by
            have := hbelow next.id habove
            omega
          obtain ⟨anchor, hanchored, hplace⟩ := ih hnext hlt
          have howner' := hs.anchored_of_reference? howner habove hanchored
          refine ⟨anchor, .under hr hshares hparent howner', ?_⟩
          simp only [habove]
          exact (Action.bind_of_ok (Query.find?_of_issued hnext) _).trans hplace

/-- A reference or element has the origin of what it hangs from. -/
theorem Linked.origin_above (hs : Linked honest s) {node : NodeId} {w : node.kind.Wrapper}
    (hw : s.caches.Issued node.handle w) (hkind : node.kind.isReference = true) :
    match (Kind.node node.kind).above w with
    | none => node.kind.origin w = .synthetic
    | some above => Query.origin above session s = .ok (node.kind.origin w) s := by
  have horigin (above : NodeId) {owner : above.kind.Wrapper} {origin : Origin}
      (howner : s.caches.Issued above.handle owner) (hsame : origin = above.kind.origin owner) :
      Query.origin above session s = .ok origin s := by
    rw [hsame]
    exact Action.bind_of_ok (Query.resolve_of_get session howner) _
  have hhangs := hs.hangs_of_issued hw
  obtain ⟨kind, index⟩ := node
  cases kind
  case typeReference =>
    simp only [Kind.above]
    cases hhangs with
    | nowhere hparent hsynthetic =>
      rw [hparent]
      exact hsynthetic
    | @under above _ hparent howner hsame _ =>
      rw [hparent]
      exact horigin above howner hsame
  case classifierReference =>
    obtain ⟨r, hr, hsame⟩ := hhangs
    exact horigin (ClassifierReference.owner w).node hr hsame
  case callableReference =>
    obtain ⟨r, hr, hsame⟩ := hhangs
    exact horigin (CallableReference.owner w).node hr hsame
  case dynamicReference =>
    obtain ⟨r, hr, hsame⟩ := hhangs
    exact horigin (DynamicReference.owner w).node hr hsame
  all_goals cases hkind

theorem NodeKind.exists_reference? {kind : NodeKind} (w : kind.Wrapper)
    (h : kind.isReference = true) : ∃ above, kind.reference? w = some above := by
  cases kind <;> first | exact ⟨_, rfl⟩ | cases h

/-- In every state of a run, also after forged handles, a reference or element has the origin of what
it hangs from, which resolves; a reference that hangs from nothing was written nowhere. Its place is
always told. It is that of the first node on the way up that has one of its own, or absent if there
is none. The entry of a supertype or bound list is where the list has it. -/
theorem references_inherit {oracle : σ} (h : Reaches session (.start oracle) s) :
    (∀ {node : NodeId} {w : node.kind.Wrapper}, Query.resolve node.handle session s = .ok w s →
      node.kind.isReference = true →
      (match (Kind.node node.kind).above w with
        | none => node.kind.origin w = .synthetic
        | some above => Query.origin above session s = .ok (node.kind.origin w) s) ∧
      (∃ place oracle', node.location session s = .ok place { s with oracle := oracle' }) ∧
      (∃! anchor, node.Anchored s.caches anchor) ∧
      ∀ {anchor}, node.Anchored s.caches anchor →
        node.location session s = Query.locationOf anchor session s) ∧
    (∀ {handle : TypeReferenceId} {r : TypeReference},
      Query.resolve handle session s = .ok r s → 0 ≤ r.index →
      handle.node.location session s = Query.locate (r.entry? s.caches) session s) := by
  have hs : Linked False s := h.linked (.start oracle)
  refine ⟨?_, ?_⟩
  · intro node w hresolve hkind
    have hw : s.caches.Issued node.handle w := (Query.resolve_eq_ok hresolve).1
    obtain ⟨above, habove⟩ := node.kind.exists_reference? w hkind
    obtain ⟨r, hr⟩ := hs.exists_reference hw habove
    have hid : r.id = above := hs.wellFormed.idOf_eq hr
    subst hid
    have hsteps : r.id.index < s.caches.typeReferences.size + 1 :=
      Nat.lt_succ_of_lt (IdentityCache.get_eq_some_lt hr)
    obtain ⟨anchor, hanchored, hplace⟩ := hs.locationWithin_anchored session hr hsteps
    have hnode := hs.anchored_of_reference? hw habove hanchored
    refine ⟨hs.origin_above hw hkind, ?_, ⟨anchor, hnode, fun _ hother => hother.unique hnode⟩, ?_⟩
    · rw [NodeId.location_of_issued hw]
      obtain ⟨place, oracle', htold, _⟩ := NodeKind.location_observes _ w session s
      exact ⟨place, oracle', htold⟩
    · intro other hother
      rw [hother.unique hnode, NodeId.location_of_reference? hw habove hr, hplace]
  · intro handle r hresolve hindex
    have hr : s.caches.Issued handle r := (Query.resolve_eq_ok hresolve).1
    have hid : r.id = handle := hs.wellFormed.idOf_eq hr
    subst hid
    have hlocation : r.id.node.location session s = _ := NodeId.location_of_reference? hr rfl hr
    rw [hlocation, TypeReference.locationWithin_of_entry hindex]

/-- A class with a supertype that has an argument. -/
def SymbolTable.derivedClass : SymbolTable where
  files := #[{ path := "a.kt", package := "", declarations := [⟨0⟩] }]
  lineIndexes := #[{ starts := [0, 8], length := 20 }]
  symbols := #[
    { name := some "A", details := .classLike { supertypes := [⟨0⟩] },
      source := some { position := ⟨⟨0⟩, 0⟩, supertypeEntries := [⟨⟨0⟩, 10⟩] } }]
  types := #[
    { shape := .classType "Box" [.projection .invariant ⟨1⟩], rendered := "Box<dynamic>" },
    { shape := .dynamic, rendered := "dynamic" }]

/-- What the argument of a supertype resolves to is where the supertype is. -/
theorem references_inherit_derivedClass :
    let session : Session ReturnTypes := { oracle := SymbolTable.derivedClass.oracle }
    let before := (Query.classLike ⟨0⟩ : Query ReturnTypes _).after session (.start {})
    let s := (((Visitor.observer fun _ _ => none).walk 5 [⟨.classLike, 0⟩]).after session
      ([], before)).2
    (NodeId.location ⟨.dynamicReference, 0⟩).answer? session s = some (.file "a.kt" 2 3) ∧
      NodeId.Anchored s.caches ⟨.dynamicReference, 0⟩ (some ⟨.typeReference, 0⟩) ∧
      NodeId.location ⟨.dynamicReference, 0⟩ session s =
        NodeId.location ⟨.typeReference, 0⟩ session s := by
  intro session before s
  have hs : Reaches session (.start {}) s :=
    .walk _ 5 [⟨.classLike, 0⟩] [] (.operate (.wrap (.classLike ⟨0⟩)) .stay)
  have hdynamic : (s.caches.dynamicReferences.get 0).map (fun w : DynamicReference => w.owner) =
      some (⟨1⟩ : TypeReferenceId) := by
    decide +kernel
  have hargument : (s.caches.typeReferences.get 1).map (fun w : TypeReference => (w.parent, w.index)) =
      some (some ⟨.classifierReference, 0⟩, -1) := by
    decide +kernel
  have hclassifier : (s.caches.classifierReferences.get 0).map (fun w : ClassifierReference => w.owner) =
      some (⟨0⟩ : TypeReferenceId) := by
    decide +kernel
  have hsupertype : (s.caches.typeReferences.get 0).map (fun w : TypeReference => w.index) = some 0 := by
    decide +kernel
  have hplace : (NodeId.location ⟨.dynamicReference, 0⟩).answer? session s =
      some (.file "a.kt" 2 3) := by
    decide +kernel
  -- From here on the state is any state with such wrappers.
  clear_value s
  obtain ⟨d, hd, howner⟩ : ∃ d : DynamicReference,
      s.caches.Issued (NodeId.handle ⟨.dynamicReference, 0⟩) d ∧ d.owner = ⟨1⟩ :=
    Option.map_eq_some_iff.mp hdynamic
  obtain ⟨argument, hargument, hparent⟩ : ∃ r : TypeReference,
      s.caches.Issued (NodeId.handle ⟨.typeReference, 1⟩) r ∧
        (r.parent, r.index) = (some ⟨.classifierReference, 0⟩, -1) :=
    Option.map_eq_some_iff.mp hargument
  obtain ⟨hparent, hindex⟩ := Prod.mk.inj hparent
  obtain ⟨c, hc, howner'⟩ : ∃ c : ClassifierReference,
      s.caches.Issued (NodeId.handle ⟨.classifierReference, 0⟩) c ∧ c.owner = ⟨0⟩ :=
    Option.map_eq_some_iff.mp hclassifier
  obtain ⟨supertype, hsupertype, hindex'⟩ : ∃ r : TypeReference,
      s.caches.Issued (NodeId.handle ⟨.typeReference, 0⟩) r ∧ r.index = 0 :=
    Option.map_eq_some_iff.mp hsupertype
  have hanchored : NodeId.Anchored s.caches ⟨.dynamicReference, 0⟩ (some ⟨.typeReference, 0⟩) := by
    refine .under hd rfl (congrArg (fun owner : TypeReferenceId => some owner.node) howner) ?_
    refine .under hargument (decide_eq_true (by omega)) hparent ?_
    refine .under hc rfl (congrArg (fun owner : TypeReferenceId => some owner.node) howner') ?_
    exact .here hsupertype (decide_eq_false (by omega))
  have hlocated := (references_inherit hs).1 (Query.resolve_of_get session hd) rfl
  exact ⟨hplace, hanchored, hlocated.2.2.2 hanchored⟩

end SymbolGraph
