import SymbolGraph.Proofs.Tidy.Below
import SymbolGraph.Proofs.Tidy.Run

/-!
# Parents and children

In a table whose containers fit its lists, the parent of every child of a node is that node. The
children of a node come from lists of keys, and their parents from handles in the wrappers or from
the containers in the table; that the two meet is seen from the keys of the children.
-/

namespace SymbolGraph

variable {world : World} {table : SymbolTable} {caches : Caches} {kind : NodeKind}
  {s t : SessionState ReturnTypes}

/-- The declarations that a symbol lists lie in the symbol, and those that a file lists lie right in the
file. -/
structure SymbolTable.Consistent (table : SymbolTable) : Prop where
  owned : ∀ {owner key : SymbolKey} {symbol member : SymbolRecord},
    table.symbols[owner.index]? = some symbol → key ∈ symbol.contents →
    table.symbols[key.index]? = some member → member.container = some owner
  filed : ∀ {file : FileKey} {key : SymbolKey} {record : FileRecord} {member : SymbolRecord},
    table.files[file.index]? = some record → key ∈ record.declarations →
    table.symbols[key.index]? = some member → member.container = none ∧ member.file = some file

/-! ## Wrappers and their parents -/

/-- The wrapper of a declaration is found as a declaration. -/
theorem NodeKey.exists_foundUnder {k : NodeKey} {key : SymbolKey} (hk : k.declaration? = some key)
    {w : k.kind.Wrapper} (hw : caches.lookup (.node k.kind) k.key = some w) :
    ∃ d : Declaration, d.FoundUnder caches key ∧ d.node = ((Kind.node k.kind).idOf w).node ∧
      ∀ {σ : Type}, (k.kind.parent w : Query σ (Option NodeId)) = d.parent := by
  obtain ⟨kind, _⟩ := k
  cases kind <;> cases hk
  · exact ⟨.classLike w, hw, rfl, rfl⟩
  · exact ⟨.function w, hw, rfl, rfl⟩
  · exact ⟨.property w, hw, rfl, rfl⟩
  · exact ⟨.typeParameter w, hw, rfl, rfl⟩

/-- A node in the key is handed back as the parent. -/
theorem Made.parent_of_holder {k : NodeKey} {w : k.kind.Wrapper}
    (h : Made table (.node k.kind) k.key w) {node : NodeId} (hnode : k.holder = some node)
    {σ : Type} : (k.kind.parent w : Query σ (Option NodeId)) = pure (some node) := by
  obtain ⟨kind, key⟩ := k
  cases kind <;> cases h <;> first | exact congrArg pure hnode | cases hnode

/-! ## Parents that are found -/

theorem SymbolTable.request_symbol {key : SymbolKey} {symbol : SymbolRecord}
    (h : world.table.symbols[key.index]? = some symbol) :
    Query.request (·.symbol key) world.session s = .ok symbol s :=
  Inquiry.Told.request (i := .symbol key) h s

/-- A declaration that was wrapped is found again. -/
theorem Declaration.FoundUnder.declaration_eq_ok {d : Declaration} {key : SymbolKey}
    (h : d.FoundUnder s.caches key) (hgenuine : s.caches.Genuine world.table) :
    Query.declaration key world.session s = .ok d s := by
  have hshown := h.genuine hgenuine
  refine (Action.bind_of_ok (SymbolTable.request_symbol hshown.symbol) _).trans ?_
  have hsort := hshown.sort
  cases hdetails : d.symbol.details <;> rw [hdetails] at hsort <;> cases d <;> cases hsort
  · exact Action.bind_of_ok ((Query.classLike_wraps key).of_lookup _ s h) _
  · exact Action.bind_of_ok ((Query.function_wraps key).of_lookup _ s h) _
  · exact Action.bind_of_ok ((Query.property_wraps key).of_lookup _ s h) _
  · exact Action.bind_of_ok ((Query.typeParameter_wraps key).of_lookup _ s h) _

/-- What a symbol lies in is found again, and nothing else is. -/
theorem SymbolRecord.Encloses.containerNode_eq_ok {symbol : SymbolRecord} {node : Option NodeId}
    (h : symbol.Encloses s.caches node) (hgenuine : s.caches.Genuine world.table) :
    symbol.containerNode world.session s = .ok node s := by
  unfold SymbolRecord.containerNode
  cases h with
  | nothing hcontainer hfile =>
    rw [hcontainer, hfile]
    rfl
  | file hcontainer hfile hw =>
    rw [hcontainer, hfile]
    exact Action.bind_of_ok ((Query.file_wraps _).of_lookup _ s hw) _
  | @declaration key d hcontainer hd =>
    have hshown := hd.genuine hgenuine
    have hfound := hd.declaration_eq_ok hgenuine
    rw [hcontainer]
    refine (Action.bind_of_ok (SymbolTable.request_symbol hshown.symbol) _).trans ?_
    have hsort := hshown.sort
    cases hdetails : d.symbol.details <;> rw [hdetails] at hsort <;> cases d <;> cases hsort <;>
      exact Action.bind_of_ok hfound _
  | @getter key property p g hcontainer hproperty hp hg =>
    cases hgenuine.made _ hg with | getter id hsymbol hdetails =>
    rw [hcontainer]
    refine (Action.bind_of_ok (SymbolTable.request_symbol hsymbol) _).trans ?_
    dsimp only at hproperty
    simp only [hdetails, hproperty]
    refine (Action.bind_of_ok ((Query.property_wraps property).of_lookup _ s hp) _).trans ?_
    exact Action.bind_of_ok ((Query.getter_wraps p.id key).of_lookup _ s hg) _
  | @setter key property p w hcontainer hproperty hp hw =>
    cases hgenuine.made _ hw with | setter id hsymbol hdetails =>
    rw [hcontainer]
    refine (Action.bind_of_ok (SymbolTable.request_symbol hsymbol) _).trans ?_
    dsimp only at hproperty
    simp only [hdetails, hproperty]
    refine (Action.bind_of_ok ((Query.property_wraps property).of_lookup _ s hp) _).trans ?_
    exact Action.bind_of_ok ((Query.setter_wraps p.id key).of_lookup _ s hw) _

theorem SymbolRecord.Encloses.unique {symbol : SymbolRecord} {node other : Option NodeId}
    (h : symbol.Encloses s.caches node) (h' : symbol.Encloses s.caches other)
    (hgenuine : s.caches.Genuine world.table) : node = other := by
  have hnode := (h.containerNode_eq_ok hgenuine).symm.trans (h'.containerNode_eq_ok hgenuine)
  cases hnode
  rfl

/-- The parent of a declaration is what the declaration lies in, found now or before. -/
theorem Declaration.parent_eq_ok {d : Declaration} {key : SymbolKey} (hs : Tidy world.table s)
    (hd : d.FoundUnder s.caches key) {node : NodeId}
    (hnode : d.symbol.Encloses s.caches (some node)) :
    ∃ t, d.parent world.session s = .ok (some node) t := by
  obtain ⟨parent, t, hok⟩ : ∃ parent t, d.parent world.session s = .ok parent t := by
    rw [parent, Query.memoize_apply]
    cases s.memo.get? (d.node.cell .parent) with
    | some parent => exact ⟨parent, s, rfl⟩
    | none =>
      rw [hnode.containerNode_eq_ok hs.genuine]
      exact ⟨_, _, rfl⟩
  obtain ⟨htidy, hgrows, hparent⟩ := (parent_yields hd).of_ok hs hok
  have hsame := hparent.unique (hnode.grows hgrows) htidy.genuine
  exact ⟨t, hsame ▸ hok⟩

/-! ## Children and their parents -/

/-- A declaration that an issued node lists lies in the node. -/
theorem SymbolTable.Consistent.encloses (htable : table.Consistent) (hgenuine : caches.Genuine table)
    {k : NodeKey} {w : k.kind.Wrapper} (hw : caches.lookup (.node k.kind) k.key = some w)
    {d : Declaration} {key : SymbolKey} (hd : d.FoundUnder caches key)
    (hkey : key ∈ k.kind.contents w) :
    d.symbol.Encloses caches (some ((Kind.node k.kind).idOf w).node) := by
  have hsymbol := (hd.genuine hgenuine).symbol
  have hmade := hgenuine.made _ hw
  cases howner : k.declaration? with
  | some owner =>
    obtain ⟨ownerSymbol, hownerSymbol, hcontents, _⟩ :=
      hmade.symbol (NodeKey.symbol?_of_declaration? howner)
    obtain ⟨outer, houter, hnode, _⟩ := NodeKey.exists_foundUnder howner hw
    rw [← hnode]
    exact .declaration (htable.owned hownerSymbol (hcontents ▸ hkey) hsymbol) houter
  | none =>
    -- Of the other nodes only files list declarations.
    obtain ⟨kind, nodeKey⟩ := k
    cases kind
    case file =>
      cases hmade with | file id hfile =>
      obtain ⟨hcontainer, hfile⟩ := htable.filed hfile hkey hsymbol
      exact .file hcontainer hfile hw
    all_goals first | cases hkey | cases howner

/-- The parent of a child is read off the wrapper of the child, or it is found as what the child lies
in. -/
theorem NodeKey.Below.parent_eq_ok (htable : world.table.Consistent) (hs : Tidy world.table s)
    {k : NodeKey} {w : k.kind.Wrapper} (hw : s.caches.lookup (.node k.kind) k.key = some w)
    {below : NodeKey} (hbelow : below.Below ((Kind.node k.kind).idOf w).node (k.kind.contents w)
      (k.kind.accessories w)) {child : NodeId} (hchild : below.At s.caches child) :
    ∃ t, child.parent world.session s = .ok (some ((Kind.node k.kind).idOf w).node) t := by
  obtain ⟨v, hv, rfl⟩ := hchild
  have hissued := hs.genuine.issued_of_lookup hv
  have hparent : ((Kind.node below.kind).idOf v).node.parent world.session s =
      below.kind.parent v world.session s :=
    Action.bind_of_ok (Query.resolve_of_get world.session hissued) _
  have hheld (hholder : below.holder = some ((Kind.node k.kind).idOf w).node) :
      ∃ t, below.kind.parent v world.session s = .ok (some ((Kind.node k.kind).idOf w).node) t := by
    rw [(hs.genuine.made _ hv).parent_of_holder hholder]
    exact ⟨s, rfl⟩
  rw [hparent]
  cases hbelow with
  | annotationUse key => exact hheld rfl
  | reference hholder => exact hheld hholder
  | part _ hholder => exact hheld hholder
  | accessory _ _ hholder => exact hheld hholder
  | declaration hkey hdeclaration =>
    obtain ⟨d, hd, _, hsame⟩ := exists_foundUnder hdeclaration hv
    rw [hsame]
    exact d.parent_eq_ok hs hd (htable.encloses hs.genuine hw hd hkey)

/-- The children of a node have the node as their parent in all later states. -/
theorem NodeId.parent_of_children (htable : world.table.Consistent) (hs : Tidy world.table s)
    {node : NodeId} {children : List NodeId}
    (hchildren : node.children world.session s = .ok children t) {child : NodeId}
    (hchild : child ∈ children) {u : SessionState ReturnTypes} (hu : Tidy world.table u)
    (hgrows : t.caches.Grows u.caches) :
    ∃ u', child.parent world.session u = .ok (some node) u' := by
  obtain ⟨htidy, _, w, hw, keys, hkeys, hshown⟩ := node.children_yields.of_ok hs hchildren
  obtain ⟨k, hk, hat⟩ := View.list_exists hshown hchild
  obtain ⟨nodeKey, hlookup⟩ := htidy.genuine.exists_key hw
  have hid : ((Kind.node node.kind).idOf w).node = node :=
    congrArg Handle.node (htidy.genuine.idOf_eq hw)
  have hparent := NodeKey.Below.parent_eq_ok (k := ⟨node.kind, nodeKey⟩) htable hu
    (hgrows.lookup hlookup) (hkeys.below hk) (hat.grows hgrows)
  rwa [hid] at hparent

/-- In every state of a run, whatever children a node is found to have, the node is the parent of each
of them from then on, and no other node is ever found to have one of them as a child. -/
theorem reaches_parent_of_children (htable : world.table.Consistent) {types : ReturnTypes}
    (hs : Reaches world.session (.start types) s) {node : NodeId} {children : List NodeId}
    (hchildren : node.children world.session s = .ok children t) {child : NodeId}
    (hchild : child ∈ children) {u : SessionState ReturnTypes} (hu : Reaches world.session t u) :
    (∃ u', child.parent world.session u = .ok (some node) u') ∧
      ∀ {other : NodeId} {siblings : List NodeId} {u' : SessionState ReturnTypes},
        other.children world.session u = .ok siblings u' → child ∈ siblings → other = node := by
  have hread {node : NodeId} {children : List NodeId} {s t : SessionState ReturnTypes}
      (hchildren : node.children world.session s = .ok children t) : Reaches world.session s t :=
    Action.after_of_ok hchildren ▸ .operate (.read node.handle .children) .stay
  have htidy := hs.tidy (.start world.table types)
  have hparent {u : SessionState ReturnTypes} (hu : Reaches world.session t u) :=
    node.parent_of_children htable htidy hchildren hchild
      ((hread hchildren).trans hu |>.tidy htidy) hu.grows.caches
  refine ⟨hparent hu, ?_⟩
  intro other siblings u' hsiblings hsibling
  have hu' := (hread hchildren).trans (hu.trans (hread hsiblings)) |>.tidy htidy
  -- In the last state the parent of the child is the one node and the other.
  obtain ⟨_, hnode⟩ := hparent (hu.trans (hread hsiblings))
  obtain ⟨_, hother⟩ := other.parent_of_children htable ((hread hchildren).trans hu |>.tidy htidy)
    hsiblings hsibling hu' (.refl _)
  rw [hnode] at hother
  cases hother
  rfl

/-- The method is the only child of the first class. -/
theorem reaches_parent_of_children_twoClasses :
    let world : World := { table := .twoClasses }
    let start : SessionState ReturnTypes := .start world.table.returnTypes
    let s := (Query.classLike ⟨0⟩ : Query ReturnTypes _).after world.session start
    ∃ t, (⟨.classLike, 0⟩ : NodeId).children world.session s = .ok [⟨.function, 0⟩] t ∧
      ∃ u, (⟨.function, 0⟩ : NodeId).parent world.session t = .ok (some ⟨.classLike, 0⟩) u := by
  intro world start s
  have htable : world.table.Consistent := by
    refine ⟨?_, fun hfile => absurd hfile (by simp [world, SymbolTable.twoClasses])⟩
    rintro ⟨_ | _ | _ | owner⟩ key symbol member howner hkey hmember
    · cases howner
      cases List.mem_singleton.mp hkey
      cases hmember
      rfl
    · cases howner
      cases hkey
    · cases howner
      cases hkey
    · cases howner
  have hs : Reaches world.session start s := .operate (.wrap (.classLike ⟨0⟩)) .stay
  have hchildren : (⟨.classLike, 0⟩ : NodeId).children world.session s =
      .ok [⟨.function, 0⟩] _ := rfl
  exact ⟨_, hchildren,
    (reaches_parent_of_children htable hs hchildren (List.mem_singleton_self _) .stay).1⟩

end SymbolGraph
