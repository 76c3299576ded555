import SymbolGraph.Proofs.Tidy.Success

/-!
# Qualified names in closed form

The qualified name of a declaration is found by going from parent to parent, and every part of it is
kept on the way. What comes out is the name made from the chain of containers in the table, whatever
was asked for before.
-/

namespace SymbolGraph

variable {world : World} {table : SymbolTable} {s : SessionState ReturnTypes} {d : Declaration}
  {key : SymbolKey} {chain : List SymbolRecord}

/-! ## One name -/

/-- The containers in the table give a symbol one name. -/
theorem SymbolTable.Names.unique {symbol : SymbolRecord} {name name' : Option String}
    (h : table.Names symbol name) (h' : table.Names symbol name') : name = name' := by
  induction h generalizing name' with
  | inBody hbody =>
    cases h' with
    | inBody => rfl
    | outermost hbody' | inAccessor hbody' | nested hbody' => exact absurd hbody hbody'
  | outermost hbody hcontainer =>
    cases h' with
    | inBody hbody' => exact absurd hbody' hbody
    | outermost => rfl
    | inAccessor _ hcontainer' | nested _ hcontainer' =>
      cases hcontainer.symm.trans hcontainer'
  | inAccessor hbody hcontainer houter hsort =>
    cases h' with
    | inBody | inAccessor => rfl
    | outermost _ hcontainer' =>
      cases hcontainer.symm.trans hcontainer'
    | nested _ hcontainer' houter' hsort' =>
      cases hcontainer.symm.trans hcontainer'
      cases houter.symm.trans houter'
      rw [hsort] at hsort'
      cases hsort'
  | nested hbody hcontainer houter hsort _ ih =>
    cases h' with
    | inBody hbody' => exact absurd hbody' hbody
    | outermost _ hcontainer' =>
      cases hcontainer.symm.trans hcontainer'
    | inAccessor _ hcontainer' houter' hsort' =>
      cases hcontainer.symm.trans hcontainer'
      cases houter.symm.trans houter'
      rw [hsort] at hsort'
      cases hsort'
    | nested _ hcontainer' houter' _ hname' =>
      cases hcontainer.symm.trans hcontainer'
      cases houter.symm.trans houter'
      rw [ih hname']

theorem SymbolDetails.isAccessor_eq_false {details : SymbolDetails}
    (h : details.sort.isDeclaration = true) : details.isAccessor = false := by
  cases details <;> first | rfl | cases h

theorem SymbolRecord.hidesNames_of_isDeclaration {symbol : SymbolRecord}
    (h : symbol.details.sort.isDeclaration = true) : symbol.hidesNames = (symbol.kind = .inBody) := by
  simp [hidesNames, SymbolDetails.isAccessor_eq_false h]

/-- A symbol that is no declaration hides all names, if it can be found as a container at all. -/
theorem SymbolRecord.Findable.hidesNames {symbol : SymbolRecord} (h : symbol.Findable table.symbols)
    (hsort : symbol.details.sort.isDeclaration = false) : symbol.hidesNames = true := by
  cases h with
  | declaration h =>
    rw [hsort] at h
    cases h
  | accessor haccessor => rw [SymbolRecord.hidesNames, haccessor, Bool.or_true]

/-- The containers give a declaration the name that is made from its chain. -/
theorem SymbolKey.Chain.names (h : key.Chain table.symbols chain)
    (hfindable : ∀ symbol ∈ chain, symbol.Findable table.symbols) {symbol : SymbolRecord}
    (hsymbol : table.symbols[key.index]? = some symbol)
    (hsort : symbol.details.sort.isDeclaration = true) :
    table.Names symbol (SymbolRecord.joinedName chain) := by
  induction h generalizing symbol with
  | @outermost key _ hsymbol' hcontainer =>
    cases hsymbol.symm.trans hsymbol'
    rw [SymbolRecord.joinedName_singleton]
    simp only [SymbolRecord.hidesNames_of_isDeclaration hsort]
    split
    · exact .inBody ‹_›
    · exact .outermost ‹_› hcontainer
  | @nested key outer _ chain hsymbol' hcontainer hchain ih =>
    cases hsymbol.symm.trans hsymbol'
    have houterFindable := fun symbol hmem => hfindable symbol (List.mem_append_left _ hmem)
    rw [SymbolRecord.joinedName_concat hchain.ne_nil]
    simp only [SymbolRecord.hidesNames_of_isDeclaration hsort]
    split
    · exact .inBody ‹_›
    · obtain ⟨outerSymbol, houter, hmem⟩ := hchain.exists_symbol
      cases houterSort : outerSymbol.details.sort.isDeclaration with
      | true => exact .nested ‹_› hcontainer houter houterSort (ih houterFindable houter houterSort)
      | false =>
        have hhides := (houterFindable outerSymbol hmem).hidesNames houterSort
        rw [SymbolRecord.joinedName_eq_none hmem hhides]
        exact .inAccessor ‹_› hcontainer houter houterSort

namespace Declaration

/-! ## Names are found -/

/-- A declaration is found by its node. -/
theorem FoundUnder.nodeDeclaration_eq_ok (h : d.FoundUnder s.caches key)
    (hgenuine : s.caches.Genuine world.table) :
    Query.nodeDeclaration d.node world.session s = .ok (some d) s := by
  cases d <;> exact Action.bind_of_ok (Query.resolve_of_get _ (hgenuine.issued_of_lookup h)) _

/-- What a declaration with a chain lies in is found. -/
theorem parent_succeeds (hfiles : world.table.FilesKnown) (hchain : key.Chain world.table.symbols chain)
    (hfindable : ∀ symbol ∈ chain, symbol.Findable world.table.symbols)
    (hd : d.FoundUnder s.caches key) (hgenuine : s.caches.Genuine world.table) :
    d.parent.Succeeds world.session s := by
  have hshown := (hd.genuine hgenuine).symbol
  refine Query.memoize_succeeds (SymbolRecord.containerNode_succeeds ?_ fun outerKey hcontainer => ?_)
  · exact fun _ => hfiles _ (Array.mem_of_getElem? hshown)
  · obtain ⟨_, houter, rfl⟩ := hchain.outer hshown hcontainer
    obtain ⟨outer, hsymbol, hmem⟩ := houter.exists_symbol
    exact ⟨outer, hsymbol, hfindable outer (List.mem_append_left _ hmem)⟩

/-- A declaration has a qualified name, or is known to have none, if what it lies in is found and the
same holds of the declaration around it. -/
theorem nameUnder_succeeds {nameOf : Declaration → Query ReturnTypes (Option String)}
    (hs : Tidy world.table s) (hd : d.FoundUnder s.caches key)
    (hparent : d.parent.Succeeds world.session s)
    (h : ∀ {outer outerKey t}, d.symbol.container = some outerKey →
      outer.FoundUnder t.caches outerKey → Tidy world.table t →
      (nameOf outer).Succeeds world.session t) :
    (d.nameUnder nameOf).Succeeds world.session s := by
  unfold nameUnder
  by_cases hbody : d.symbol.kind = .inBody
  · rw [if_pos hbody]
    exact .pure _
  · rw [if_neg hbody]
    refine hparent.bind fun {parent t} hrun => ?_
    obtain ⟨htidy, _, hencloses⟩ := (parent_yields hd).of_ok hs hrun
    cases hencloses with
    | nothing => exact .pure _
    | file => exact .pure _
    | @declaration outerKey outer hcontainer houter =>
      have hfile : outer.node.kind ≠ .file := by
        intro hkind
        have hdeclaration := outer.node_isDeclaration
        rw [hkind] at hdeclaration
        cases hdeclaration
      simp only [if_neg hfile]
      refine .bind_ok (houter.nodeDeclaration_eq_ok htidy.genuine) ?_
      exact (h hcontainer houter htidy).map _
    | getter | setter => exact .pure _

/-- A name is found if the chain is not too long. -/
theorem qualifiedNameWithin_succeeds (hfiles : world.table.FilesKnown)
    (hchain : key.Chain world.table.symbols chain)
    (hfindable : ∀ symbol ∈ chain, symbol.Findable world.table.symbols) {depth : Nat}
    (hdepth : chain.length ≤ depth + 1) (hs : Tidy world.table s) (hd : d.FoundUnder s.caches key) :
    (d.qualifiedNameWithin depth).Succeeds world.session s := by
  induction depth generalizing key chain s d with
  | zero =>
    have hparent := parent_succeeds hfiles hchain hfindable hd hs.genuine
    refine Query.memoize_succeeds (nameUnder_succeeds hs hd hparent fun hcontainer _ _ => ?_)
    -- Only the outermost symbol is alone on its chain.
    obtain ⟨_, houter, rfl⟩ := hchain.outer (hd.genuine hs.genuine).symbol hcontainer
    have hpositive := List.length_pos_of_ne_nil houter.ne_nil
    rw [List.length_append, List.length_singleton] at hdepth
    omega
  | succ depth ih =>
    have hparent := parent_succeeds hfiles hchain hfindable hd hs.genuine
    refine Query.memoize_succeeds (nameUnder_succeeds hs hd hparent fun hcontainer houterFound ht => ?_)
    obtain ⟨_, houter, rfl⟩ := hchain.outer (hd.genuine hs.genuine).symbol hcontainer
    rw [List.length_append, List.length_singleton] at hdepth
    exact ih houter (fun symbol hmem => hfindable symbol (List.mem_append_left _ hmem))
      (Nat.le_of_succ_le_succ hdepth) ht houterFound

/-- A declaration with a chain is found to have the name that is made from the chain. -/
theorem qualifiedName_of_chain (hfiles : world.table.FilesKnown)
    (hchain : key.Chain world.table.symbols chain)
    (hfindable : ∀ symbol ∈ chain, symbol.Findable world.table.symbols) (hs : Tidy world.table s)
    (hd : d.FoundUnder s.caches key) :
    ∃ t, d.qualifiedName world.session s = .ok (SymbolRecord.joinedName chain) t := by
  have hdepth : chain.length ≤ world.table.symbols.size + 1 := Nat.le_succ_of_le hchain.length_le
  obtain ⟨name, t, hrun⟩ : d.qualifiedName.Succeeds world.session s :=
    qualifiedNameWithin_succeeds hfiles hchain hfindable hdepth hs hd
  obtain ⟨_, _, hname⟩ := (qualifiedName_yields hd).of_ok hs hrun
  have hshown := hd.genuine hs.genuine
  have hsort : d.symbol.details.sort.isDeclaration = true := hshown.sort ▸ d.node_isDeclaration
  rw [(hchain.names hfindable hshown.symbol hsort).unique hname]
  exact ⟨t, hrun⟩

end Declaration

/-! ## Names of keys -/

/-- The symbol is a declaration, and all around it there are declarations and accessors of properties. -/
structure SymbolTable.Placed (table : SymbolTable) (key : SymbolKey) : Prop where
  declaration : ∃ symbol, table.symbols[key.index]? = some symbol ∧
    symbol.details.sort.isDeclaration = true
  outwards : ∀ outer, Relation.ReflTransGen (SymbolKey.LiesIn table.symbols) key outer →
    ∃ symbol, table.symbols[outer.index]? = some symbol ∧ symbol.Findable table.symbols

/-- In a table of declarations and accessors of properties every declaration is placed. -/
theorem SymbolTable.placed_of_forall (hfindable : ∀ symbol ∈ table.symbols,
      symbol.Findable table.symbols ∧ ∀ outer ∈ symbol.container, outer.index < table.symbols.size)
    {symbol : SymbolRecord} (hsymbol : table.symbols[key.index]? = some symbol)
    (hsort : symbol.details.sort.isDeclaration = true) : table.Placed key where
  declaration := ⟨symbol, hsymbol, hsort⟩
  outwards outer hlies := by
    induction hlies with
    | refl => exact ⟨symbol, hsymbol, (hfindable symbol (Array.mem_of_getElem? hsymbol)).1⟩
    | @tail _ outer _ hin _ =>
      obtain ⟨inner, hinner, hcontainer⟩ := hin
      have hknown := (hfindable inner (Array.mem_of_getElem? hinner)).2 outer hcontainer
      exact ⟨_, Array.getElem?_eq_getElem hknown, (hfindable _ (Array.getElem_mem hknown)).1⟩

/-- The symbol is wrapped as a declaration, and from then on it is found to have this qualified name, or
none. -/
def SymbolKey.Named (world : World) (s : SessionState ReturnTypes) (key : SymbolKey)
    (name : Option String) : Prop :=
  ∃ d t, Query.declaration key world.session s = .ok d t ∧ d.key = key ∧
    ∀ {u}, Reaches world.session t u → ∃ v, d.qualifiedName world.session u = .ok name v

theorem SymbolKey.named_of_chain (hfiles : world.table.FilesKnown) (hkey : world.table.Placed key)
    (hchain : key.Chain world.table.symbols chain)
    (hfindable : ∀ symbol ∈ chain, symbol.Findable world.table.symbols) (hs : Tidy world.table s) :
    key.Named world s (SymbolRecord.joinedName chain) := by
  obtain ⟨symbol, hsymbol, hsort⟩ := hkey.declaration
  obtain ⟨d, t, hrun⟩ : (Query.declaration key).Succeeds world.session s :=
    Query.declaration_succeeds hsymbol hsort
  obtain ⟨ht, _, hd⟩ := (Query.declaration_yields key).of_ok hs hrun
  refine ⟨d, t, hrun, (hd.genuine ht.genuine).key_eq, fun hu => ?_⟩
  exact Declaration.qualifiedName_of_chain hfiles hchain hfindable (hu.tidy ht)
    (hd.grows hu.grows.caches)

/-- What lies further in has the chain of the symbol further out at the beginning of its own. -/
theorem SymbolKey.Chain.begins_of_liesIn {symbols : Array SymbolRecord}
    (h : key.Chain symbols chain) {inner : SymbolKey} {innerChain : List SymbolRecord}
    (hinner : inner.Chain symbols innerChain)
    (hlies : Relation.ReflTransGen (SymbolKey.LiesIn symbols) inner key) :
    chain <+: innerChain := by
  induction hlies using Relation.ReflTransGen.head_induction_on generalizing innerChain with
  | refl => rw [h.unique hinner]
  | head hin _ ih =>
    obtain ⟨_, hsymbol, hcontainer⟩ := hin
    obtain ⟨_, houter, rfl⟩ := hinner.outer hsymbol hcontainer
    exact (ih houter).trans (List.prefix_append _ _)

/-- If no symbol lies in itself and all files are known, a declaration all around which there are
declarations and accessors of properties has the qualified name that is made from its chain. If it has
none, because something on the chain is local to a body or an accessor, then nothing in it has one. -/
theorem qualifiedName_closed_form
    (hacyclic : ∀ key, ¬ Relation.TransGen (SymbolKey.LiesIn world.table.symbols) key key)
    (hfiles : world.table.FilesKnown) (hkey : world.table.Placed key) {types : ReturnTypes}
    (hs : Reaches world.session (.start types) s) :
    ∃ chain, key.Chain world.table.symbols chain ∧
      key.Named world s (SymbolRecord.joinedName chain) ∧
      (SymbolRecord.joinedName chain = none → ∀ inner, world.table.Placed inner →
        Relation.ReflTransGen (SymbolKey.LiesIn world.table.symbols) inner key →
        inner.Named world s none) := by
  have hx : Tidy world.table s := hs.tidy (.start world.table types)
  obtain ⟨chain, hchain, hfindable⟩ := SymbolKey.exists_chain hacyclic hkey.outwards
  refine ⟨chain, hchain, SymbolKey.named_of_chain hfiles hkey hchain hfindable hx, ?_⟩
  intro hnone inner hinner hlies
  obtain ⟨innerChain, hinnerChain, hinnerFindable⟩ :=
    SymbolKey.exists_chain hacyclic hinner.outwards
  have hbegins := hchain.begins_of_liesIn hinnerChain hlies
  rw [← SymbolRecord.joinedName_of_prefix hchain.ne_nil hbegins hnone]
  exact SymbolKey.named_of_chain hfiles hinner hinnerChain hinnerFindable hx

/-- A class with a constructor and a property, and a function of an unnamed class in the getter of the
property. -/
def Draft.inGetter : Draft where
  files := #[{ path := "p/a", package := "p" }]
  types := #[{ shape := .error, rendered := "?" }]
  symbols := #[
    { name := some "A", details := .classLike {}, package := "p", file := some ⟨0⟩ },
    { name := none, details := .function { isConstructor := true }, container := some ⟨0⟩ },
    { name := some "x", details := .property { type := ⟨0⟩ }, container := some ⟨0⟩ },
    { name := none, details := .getter ⟨0⟩, kind := .accessor, container := some ⟨2⟩ },
    { name := none, details := .classLike {}, container := some ⟨3⟩ },
    { name := some "f", details := .function {}, container := some ⟨4⟩ }]

/-- The constructor has a name, and neither the unnamed class nor its function has one. -/
theorem qualifiedName_closed_form_inGetter :
    let world : World := { table := Draft.inGetter.finish }
    let s : SessionState ReturnTypes := .start {}
    SymbolKey.Named world s ⟨1⟩ (some "p.A.<init>") ∧ SymbolKey.Named world s ⟨4⟩ none ∧
      SymbolKey.Named world s ⟨5⟩ none := by
  intro world s
  have hacyclic (key : SymbolKey) :
      ¬ Relation.TransGen (SymbolKey.LiesIn world.table.symbols) key key :=
    SymbolKey.not_transGen_liesIn_of_lt (by decide +kernel) key
  have hfiles : world.table.FilesKnown := by
    unfold SymbolTable.FilesKnown
    decide +kernel
  have hplaced {key : SymbolKey} {symbol : SymbolRecord}
      (hsymbol : world.table.symbols[key.index]? = some symbol)
      (hsort : symbol.details.sort.isDeclaration = true) : world.table.Placed key := by
    refine SymbolTable.placed_of_forall (fun symbol hmem => ?_) hsymbol hsort
    obtain ⟨i, hi, rfl⟩ := Array.mem_iff_getElem.mp hmem
    refine ⟨?_, by revert i; decide +kernel⟩
    rcases i with _ | _ | _ | _ | _ | _ | i
    case succ.succ.succ.zero => exact @SymbolRecord.Findable.accessor _ _ ⟨2⟩ _ _ rfl rfl rfl rfl
    case succ.succ.succ.succ.succ.succ => exact absurd hi (Nat.not_lt.mpr (Nat.le_add_left 6 i))
    all_goals exact .declaration rfl
  have hclass : SymbolKey.Chain world.table.symbols ⟨0⟩ _ := .outermost rfl rfl
  have hconstructor : SymbolKey.Chain world.table.symbols ⟨1⟩ _ := .nested rfl rfl hclass
  have hunnamed : SymbolKey.Chain world.table.symbols ⟨4⟩ _ :=
    .nested rfl rfl (.nested rfl rfl (.nested rfl rfl hclass))
  have hin : Relation.ReflTransGen (SymbolKey.LiesIn world.table.symbols) ⟨5⟩ ⟨4⟩ :=
    .single ⟨_, rfl, rfl⟩
  have hplaced₁ : world.table.Placed ⟨1⟩ := hplaced rfl rfl
  have hplaced₄ : world.table.Placed ⟨4⟩ := hplaced rfl rfl
  have hplaced₅ : world.table.Placed ⟨5⟩ := hplaced rfl rfl
  obtain ⟨_, hchain₁, hnamed₁, _⟩ := qualifiedName_closed_form (s := s) hacyclic hfiles hplaced₁ .stay
  obtain ⟨_, hchain₄, hnamed₄, hinner⟩ :=
    qualifiedName_closed_form (s := s) hacyclic hfiles hplaced₄ .stay
  cases hchain₁.unique hconstructor
  cases hchain₄.unique hunnamed
  exact ⟨hnamed₁, hnamed₄, hinner rfl ⟨5⟩ hplaced₅ hin⟩

end SymbolGraph
