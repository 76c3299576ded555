import SymbolGraph.Proofs.Meaning.Wrapping

/-!
# What containment means

What a node lies in, as a node and as a declaration. A declaration in a session is the one that
the table shows under its key.
-/

namespace SymbolGraph

variable {world : World} {caches : Caches}

/-! ## Parents -/

theorem SymbolRecord.containerNode_answers (symbol : SymbolRecord) :
    Answers world caches View.node.option symbol.containerNode (world.containerNode symbol) := by
  unfold containerNode World.containerNode
  cases symbol.container with
  | none =>
    cases symbol.file with
    | none => exact .pure .none
    | some file => exact (Query.file_answers file).map fun hw => .some (View.wrapper_node hw)
  | some container =>
    refine .bind (.inquire (.symbol container)) ?_
    rintro outer _ later _ _ rfl
    -- An accessor is wrapped under its property, which has to be wrapped first.
    cases outer.details
    case getter =>
      refine .bind (v := (View.wrapper (.node .property)).comap Entity.property) ?_ ?_
      · cases outer.container with
        | none => exact .throw rfl
        | some key => exact Query.receiver_answers key
      · intro p receiver later _ _ hp
        have hat : (Entity.property receiver).At later p.id := Entity.at_of_find hp
        exact (Query.getter_answers hat container).map fun hw => .some (View.wrapper_node hw)
    case setter =>
      refine .bind (v := (View.wrapper (.node .property)).comap Entity.property) ?_ ?_
      · cases outer.container with
        | none => exact .throw rfl
        | some key => exact Query.receiver_answers key
      · intro p receiver later _ _ hp
        have hat : (Entity.property receiver).At later p.id := Entity.at_of_find hp
        exact (Query.setter_answers hat container).map fun hw => .some (View.wrapper_node hw)
    all_goals
      exact (Query.declaration_answers container).map fun hd => .some (View.declaration_node hd)

namespace Declaration

theorem parent_answers {d : Declaration} {n : NodeEntity} (hd : View.declaration.Shows caches d n) :
    Answers world caches View.node.option d.parent (world.containerNode d.symbol) := by
  obtain ⟨kind, e⟩ := n
  obtain ⟨w, hw, hsort⟩ := hd
  cases kind <;> cases hsort
  · exact .field .classParent hw (SymbolRecord.containerNode_answers _)
  · exact .field .functionParent hw (SymbolRecord.containerNode_answers _)
  · exact .field .propertyParent hw (SymbolRecord.containerNode_answers _)
  · exact .field .typeParameterParent hw (SymbolRecord.containerNode_answers _)

end Declaration

/-! ## Declarations -/

/-- A declaration without the numbers in its handles. -/
def Declaration.blank : Declaration → Declaration
  | classLike w => classLike ((Kind.node .classLike).blank w)
  | function w => function ((Kind.node .function).blank w)
  | property w => property ((Kind.node .property).blank w)
  | typeParameter w => typeParameter ((Kind.node .typeParameter).blank w)

theorem NodeKind.declaration?_blank (kind : NodeKind) (w : kind.Wrapper) :
    kind.declaration? ((Kind.node kind).blank w) = (kind.declaration? w).map Declaration.blank := by
  cases kind <;> rfl

/-- A declaration and the portrait of its node. -/
def View.declared (n : NodeEntity) : View Declaration Declaration where
  Shows caches d p := View.declaration.Shows caches d n ∧ d.blank = p
  grows h hgrows := ⟨View.declaration.grows h.1 hgrows, h.2⟩

/-- A node is a declaration if the wrapper behind it is one. -/
theorem Query.nodeDeclaration_eq (kind : NodeKind) (h : Handle (.node kind)) :
    (nodeDeclaration h.node : Query ReturnTypes _) =
      if kind.isDeclaration then do return kind.declaration? (← resolve h) else return none := by
  cases kind <;> rfl

theorem Query.nodeDeclaration_answers {n : NodeEntity} {node : NodeId} (hat : n.At caches node) :
    Answers world caches (View.declared n).option (nodeDeclaration node) (world.declared n) := by
  obtain ⟨kind, e⟩ := n
  obtain ⟨h, hat, rfl⟩ := hat
  rw [nodeDeclaration_eq]
  cases hkind : kind.isDeclaration with
  | true =>
    refine (Answers.resolve hat).map ?_
    rintro w _ later ⟨hw, rfl⟩
    rw [NodeKind.declaration?_blank]
    cases hd : kind.declaration? w with
    | none => exact .none
    | some d => exact .some ⟨⟨w, hw, hd⟩, rfl⟩
  | false =>
    refine .of_faithful fun hgrows hfaithful => ?_
    obtain ⟨w, hw, _⟩ := hat.grows hgrows
    have hnone : kind.declaration? ((Kind.node kind).blank w) = none := by
      cases kind <;> first | rfl | cases hkind
    rw [World.declared, (hfaithful.fits hw).portrait, Meaning.ok_bind, hnone]
    exact .pure .none

theorem Query.nodeDeclaration_answers_node {n : NodeEntity} {node : NodeId}
    (hat : n.At caches node) :
    Answers world caches View.declaration.option (nodeDeclaration node)
      (.ok (if n.kind.isDeclaration then some n else none)) := by
  obtain ⟨kind, e⟩ := n
  obtain ⟨h, hat, rfl⟩ := hat
  rw [nodeDeclaration_eq]
  cases hkind : kind.isDeclaration with
  | true =>
    refine .bind_ok (.resolve_wrapper hat) ?_
    intro w later _ _ hw
    cases kind
    case classLike | function | property | typeParameter => exact .pure (.some ⟨w, hw, rfl⟩)
    all_goals cases hkind
  | false => exact .pure .none

theorem Declaration.parentDeclaration_answers {d : Declaration} {n : NodeEntity}
    (hd : View.declaration.Shows caches d n) :
    Answers world caches View.declaration.option d.parentDeclaration
      (world.parentDeclaration d.symbol) := by
  refine .bind (parent_answers hd) ?_
  intro node n later _ _ hnode
  cases hnode with
  | none => exact .pure .none
  | some hat => exact Query.nodeDeclaration_answers_node hat

/-! ## Genuine declarations -/

/-- The portrait of a symbol as a declaration, if it is one. -/
def SymbolRecord.declaration? (symbol : SymbolRecord) (key : SymbolKey) : Option Declaration :=
  match symbol.details with
  | .classLike details => some (.classLike { id := ⟨0⟩, key, symbol, details })
  | .function details => some (.function { id := ⟨0⟩, key, symbol, details })
  | .property details => some (.property { id := ⟨0⟩, key, symbol, details })
  | .typeParameter details => some (.typeParameter { id := ⟨0⟩, key, symbol, details })
  | .getter _ | .setter _ | .valueParameter _ => none

namespace World

variable (world)

/-- What the table shows of a declaration. -/
def Genuine (d : Declaration) : Prop := world.declared d.entity = .ok (some d)

variable {world}

theorem declared_eq_some {n : NodeEntity} {d : Declaration} (h : world.declared n = .ok (some d)) :
    n = d.entity := by
  obtain ⟨kind, e⟩ := n
  obtain ⟨p, hp, h⟩ := Meaning.bind_eq_ok h
  -- Only symbols of four sorts have portraits that are declarations.
  cases e <;> cases h
  all_goals
    obtain ⟨symbol, _, hp⟩ := Meaning.bind_eq_ok hp
    split at hp <;> cases hp
    rfl

namespace Genuine

variable {d d' : Declaration}

theorem symbol (h : world.Genuine d) :
    world.inquire (.symbol d.key) = .ok d.symbol ∧ d.symbol.declaration? d.key = some d := by
  unfold Genuine declared at h
  cases d with | classLike w | function w | property w | typeParameter w =>
  obtain ⟨⟨key, symbol'⟩, _, _⟩ := w
  obtain ⟨p, hp, h⟩ := Meaning.bind_eq_ok h
  obtain ⟨symbol, hsymbol, hp⟩ := Meaning.bind_eq_ok hp
  split at hp <;> cases hp
  cases h
  rename_i hdetails
  simp only [Declaration.symbol, Declaration.key, Declaration.wrapped, SymbolRecord.declaration?,
    hdetails]
  exact ⟨hsymbol, trivial⟩

/-- Two declarations of one symbol are one. -/
theorem unique (h : world.Genuine d) (h' : world.Genuine d') (hkey : d.key = d'.key) : d = d' := by
  have hsymbol := h.symbol.1
  rw [hkey, h'.symbol.1] at hsymbol
  have hd := h.symbol.2
  rw [hkey, ← Except.ok.inj hsymbol, h'.symbol.2] at hd
  exact (Option.some.inj hd).symm

theorem index_lt (h : world.Genuine d) : d.key.index < world.table.symbols.size :=
  (Array.getElem?_eq_some_iff.mp (World.symbols_of_inquire h.symbol.1)).1

end Genuine

end World

namespace Declaration

variable {d : Declaration} {n : NodeEntity}

@[simp] theorem blank_symbol (d : Declaration) : d.blank.symbol = d.symbol := by
  cases d <;> rfl

@[simp] theorem blank_packageName (d : Declaration) : d.blank.packageName = d.packageName := by
  cases d <;> rfl

@[simp] theorem blank_simpleName (d : Declaration) : d.blank.simpleName = d.simpleName := by
  cases d <;> rfl

theorem declared_of_shows (hfaithful : Faithful world caches)
    (hd : View.declaration.Shows caches d n) : world.declared n = .ok (some d.blank) := by
  obtain ⟨w, hw, hsort⟩ := hd
  rw [World.declared, (hfaithful.fits hw).portrait, Meaning.ok_bind, NodeKind.declaration?_blank,
    hsort]
  rfl

theorem genuine_of_shows (hfaithful : Faithful world caches)
    (hd : View.declaration.Shows caches d n) : world.Genuine d.blank := by
  have hdeclared := declared_of_shows hfaithful hd
  rw [World.Genuine, ← World.declared_eq_some hdeclared]
  exact hdeclared

/-- A declaration is known by the key of its symbol. -/
theorem entity_of_shows (hfaithful : Faithful world caches)
    (hd : View.declaration.Shows caches d n) : n = d.entity := by
  have hentity : n = d.blank.entity := World.declared_eq_some (declared_of_shows hfaithful hd)
  cases d <;> exact hentity

end Declaration

end SymbolGraph
