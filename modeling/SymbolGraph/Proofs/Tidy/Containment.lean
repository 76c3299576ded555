import SymbolGraph.Proofs.Meaning.Containment
import SymbolGraph.Proofs.Tidy.Wrapping

/-!
# Containment in tidy sessions

What a declaration lies in and how it is named, as the containers in the table say. Containers are
known by their keys, so it makes no difference with what handles the session was given.
-/

namespace SymbolGraph

variable {world : World} {table : SymbolTable} {caches later : Caches} {kind : NodeKind}

/-! ## Declarations and their nodes -/

/-- The declaration that an issued wrapper is. -/
theorem NodeKind.found_of_declaration? (hgenuine : caches.Genuine table)
    {handle : Handle (.node kind)} {w : kind.Wrapper} (hw : caches.Issued handle w)
    {d : Declaration} (hd : kind.declaration? w = some d) :
    d.node = handle.node ∧ d.FoundUnder caches d.key := by
  obtain ⟨key, hlookup⟩ := hgenuine.exists_key hw
  have hnode : ((Kind.node kind).idOf w).node = handle.node :=
    congrArg Handle.node (hgenuine.idOf_eq hw)
  have hmade := hgenuine.made _ hlookup
  cases kind <;> cases hd <;> cases hmade <;> exact ⟨hnode, hlookup⟩

/-- One node is one declaration. -/
theorem Declaration.FoundUnder.key_unique (hgenuine : caches.Genuine table) {d e : Declaration}
    {key other : SymbolKey} (hd : d.FoundUnder caches key) (he : e.FoundUnder caches other)
    (hnode : d.node = e.node) : key = other := by
  have hindex : d.node.index = e.node.index := congrArg NodeId.index hnode
  cases d <;> cases e
  case classLike.classLike => exact hgenuine.key_unique (.node .classLike) hd he hindex
  case function.function => exact hgenuine.key_unique (.node .function) hd he hindex
  case property.property => exact hgenuine.key_unique (.node .property) hd he hindex
  case typeParameter.typeParameter =>
    exact hgenuine.key_unique (.node .typeParameter) hd he hindex
  all_goals exact absurd (congrArg NodeId.kind hnode) (by simp [Declaration.node, Handle.node])

theorem Declaration.node_isDeclaration (d : Declaration) : d.node.kind.isDeclaration = true := by
  cases d <;> rfl

/-- The declaration behind a node, which there is if the node is of such a kind. -/
def Fact.declarationOf (node : NodeId) : Fact (Option Declaration) where
  Holds caches d := d.elim (node.kind.isDeclaration = false) fun d =>
    d.node = node ∧ d.FoundUnder caches d.key
  grows {_ _ d} h hgrows := by
    cases d with
    | none => exact h
    | some d => exact ⟨h.1, h.2.grows hgrows⟩

theorem Query.nodeDeclaration_yields (node : NodeId) :
    Yields world caches (nodeDeclaration node) (.declarationOf node) := by
  obtain ⟨kind, index⟩ := node
  rw [show (⟨kind, index⟩ : NodeId) = (⟨index⟩ : Handle (.node kind)).node from rfl,
    nodeDeclaration_eq]
  cases hkind : kind.isDeclaration with
  | false => exact .pure hkind
  | true =>
    refine (Yields.resolve _).map fun {w _} hgenuine hw => ?_
    cases hd : kind.declaration? w with
    | some d => exact NodeKind.found_of_declaration? hgenuine hw hd
    | none => cases kind <;> first | exact absurd hkind (by decide) | exact nomatch hd

/-! ## Parents -/

theorem SymbolRecord.containerNode_yields (symbol : SymbolRecord) :
    Yields world caches symbol.containerNode (.enclosing symbol) := by
  unfold containerNode
  cases hcontainer : symbol.container with
  | none =>
    cases hfile : symbol.file with
    | none => exact .pure (.nothing hcontainer hfile)
    | some file => exact (Query.file_yields file).map fun _ hw => .file hcontainer hfile hw
  | some key =>
    refine .bind (.inquire (.symbol key)) fun {outer _} _ _ houter => ?_
    cases hdetails : outer.details
    case getter =>
      -- The property of an accessor is the container of the accessor.
      cases hproperty : outer.container with
      | none => exact .throw_bind
      | some property =>
        refine .bind (Query.property_yields property) fun {p _} _ _ hp => ?_
        refine .bind (Query.getter_yields p.id key) fun {g _} hgrows hgenuine hg => ?_
        have hsame : g.symbol = outer := by
          cases hgenuine.made _ hg with | getter id hsymbol _ =>
          exact Option.some.inj (hsymbol.symm.trans houter)
        exact .pure (.getter hcontainer (hsame ▸ hproperty) (hgrows.lookup hp) hg)
    case setter =>
      cases hproperty : outer.container with
      | none => exact .throw_bind
      | some property =>
        refine .bind (Query.property_yields property) fun {p _} _ _ hp => ?_
        refine .bind (Query.setter_yields p.id key) fun {s _} hgrows hgenuine hs => ?_
        have hsame : s.symbol = outer := by
          cases hgenuine.made _ hs with | setter id hsymbol _ =>
          exact Option.some.inj (hsymbol.symm.trans houter)
        exact .pure (.setter hcontainer (hsame ▸ hproperty) (hgrows.lookup hp) hs)
    all_goals exact (Query.declaration_yields key).map fun _ hd => .declaration hcontainer hd

namespace SymbolRecord.Encloses

variable {symbol : SymbolRecord} {node : NodeId}

/-- What lies right in a file has no container. -/
theorem container_eq_none (h : symbol.Encloses caches (some node)) (hkind : node.kind = .file) :
    symbol.container = none := by
  generalize hnode : some node = n at h
  cases h <;> cases hnode
  case file hcontainer _ _ => exact hcontainer
  case declaration d _ _ =>
    have hd := d.node_isDeclaration
    rw [hkind] at hd
    cases hd
  all_goals cases hkind

theorem container_eq_some (h : symbol.Encloses caches (some node)) (hgenuine : caches.Genuine table)
    {d : Declaration} {key : SymbolKey} (hd : d.FoundUnder caches key) (hnode : d.node = node) :
    symbol.container = some key := by
  subst hnode
  generalize hnode : some d.node = n at h
  cases h
  case nothing => cases hnode
  case declaration other e hcontainer he =>
    rw [hcontainer, he.key_unique hgenuine hd (Option.some.inj hnode).symm]
  -- A declaration is neither a file nor an accessor.
  all_goals
    have hkind := d.node_isDeclaration
    rw [Option.some.inj hnode] at hkind
    cases hkind

/-- The only nodes around symbols that are neither files nor declarations are accessors. -/
theorem inAccessor (h : symbol.Encloses caches (some node)) (hgenuine : caches.Genuine table)
    (hfile : node.kind ≠ .file) (hkind : node.kind.isDeclaration = false) :
    ∃ key outer, symbol.container = some key ∧ table.symbols[key.index]? = some outer ∧
      outer.details.sort.isDeclaration = false := by
  generalize hnode : some node = n at h
  cases h <;> cases hnode
  case file => exact absurd rfl hfile
  case declaration d _ _ =>
    rw [d.node_isDeclaration] at hkind
    cases hkind
  case getter hcontainer _ _ hg =>
    cases hgenuine.made _ hg with | getter id hsymbol hdetails =>
    exact ⟨_, _, hcontainer, hsymbol, by rw [hdetails]; rfl⟩
  case setter hcontainer _ _ hs =>
    cases hgenuine.made _ hs with | setter id hsymbol hdetails =>
    exact ⟨_, _, hcontainer, hsymbol, by rw [hdetails]; rfl⟩

end SymbolRecord.Encloses

namespace Declaration

variable {d : Declaration} {key : SymbolKey}

theorem parent_yields (hd : d.FoundUnder caches key) :
    Yields world caches d.parent (.enclosing d.symbol) := by
  refine .of_genuine fun hgrows hgenuine => ?_
  have hd := hd.grows hgrows
  have hnode {later : Caches} : Yields world later d.symbol.containerNode (.enclosing d.symbol) :=
    d.symbol.containerNode_yields
  cases d with
  | classLike w => exact .field .classParent (hgenuine.issued_of_lookup hd) hnode
  | function w => exact .field .functionParent (hgenuine.issued_of_lookup hd) hnode
  | property w => exact .field .propertyParent (hgenuine.issued_of_lookup hd) hnode
  | typeParameter w => exact .field .typeParameterParent (hgenuine.issued_of_lookup hd) hnode

theorem parentDeclaration_yields (hd : d.FoundUnder caches key) :
    Yields world caches d.parentDeclaration .any := by
  refine .bind (parent_yields hd) fun {parent _} _ _ _ => ?_
  cases parent with
  | none => exact .pure trivial
  | some parent => exact (Query.nodeDeclaration_yields parent).to_any

/-! ## Qualified names -/

theorem nameUnder_yields (hd : d.FoundUnder caches key)
    {nameOf : Declaration → Query ReturnTypes (Option String)}
    (h : ∀ {outer outerKey later}, caches.Grows later → outer.FoundUnder later outerKey →
      Yields world later (nameOf outer) (.named world.table outer.symbol)) :
    Yields world caches (d.nameUnder nameOf) (.named world.table d.symbol) := by
  unfold nameUnder
  by_cases hbody : d.symbol.kind = .inBody
  · rw [if_pos hbody]
    exact .pure (.inBody hbody)
  · rw [if_neg hbody]
    refine .bind (parent_yields hd) fun {parent _} hgrows hgenuine hparent => ?_
    have hgenuine' := (hd.grows hgrows).genuine hgenuine
    have houtermost (hcontainer : d.symbol.container = none) : world.table.Names d.symbol
        (some (packageQualified d.packageName d.simpleName)) := by
      rw [← hgenuine'.simpleName]
      exact .outermost hbody hcontainer
    cases parent with
    | none =>
      cases hparent with | nothing hcontainer _ =>
      exact .pure (houtermost hcontainer)
    | some parent =>
      by_cases hfile : parent.kind = .file
      · simp only [hfile, if_true]
        exact .pure (houtermost (hparent.container_eq_none hfile))
      · simp only [if_neg hfile]
        refine .bind (Query.nodeDeclaration_yields parent) fun {outer _} hgrows' hlater houter => ?_
        have hparent := hparent.grows hgrows'
        cases outer with
        | none =>
          obtain ⟨outerKey, outer, hcontainer, hsymbol, hsort⟩ :=
            hparent.inAccessor hlater hfile houter
          exact .pure (.inAccessor hbody hcontainer hsymbol hsort)
        | some outer =>
          obtain ⟨hnode, houter⟩ := houter
          have hcontainer := hparent.container_eq_some hlater houter hnode
          have hshown := houter.genuine hlater
          refine (h (hgrows.trans hgrows') houter).map fun {name _} _ hname => ?_
          rw [← hgenuine'.simpleName]
          refine .nested hbody hcontainer hshown.symbol ?_ hname
          rw [hshown.sort]
          exact outer.node_isDeclaration

theorem memoize_qualifiedName_yields (hd : d.FoundUnder caches key)
    {compute : Query ReturnTypes (Option String)}
    (h : ∀ {later}, caches.Grows later →
      Yields world later compute (.named world.table d.symbol)) :
    Yields world caches (Query.memoize (d.node.cell .qualifiedName) compute)
      (.named world.table d.symbol) := by
  refine .of_genuine fun hgrows hgenuine => ?_
  have hd := hd.grows hgrows
  cases d with
  | classLike w => exact .field .classQualifiedName (hgenuine.issued_of_lookup hd) (h hgrows)
  | function w => exact .field .functionQualifiedName (hgenuine.issued_of_lookup hd) (h hgrows)
  | property w => exact .field .propertyQualifiedName (hgenuine.issued_of_lookup hd) (h hgrows)
  | typeParameter w =>
    exact .field .typeParameterQualifiedName (hgenuine.issued_of_lookup hd) (h hgrows)

theorem qualifiedNameWithin_yields (depth : Nat) (hd : d.FoundUnder caches key) :
    Yields world caches (d.qualifiedNameWithin depth) (.named world.table d.symbol) := by
  induction depth generalizing caches d key with
  | zero =>
    refine memoize_qualifiedName_yields hd fun hgrows => ?_
    exact nameUnder_yields (hd.grows hgrows) fun _ _ => .throw _
  | succ depth ih =>
    refine memoize_qualifiedName_yields hd fun hgrows => ?_
    exact nameUnder_yields (hd.grows hgrows) fun _ houter => ih houter

theorem qualifiedName_yields (hd : d.FoundUnder caches key) :
    Yields world caches d.qualifiedName (.named world.table d.symbol) :=
  qualifiedNameWithin_yields world.table.symbols.size hd

end Declaration

end SymbolGraph
