import SymbolGraph.Proofs.Walk.Again
import SymbolGraph.Proofs.Walk.Forest
import SymbolGraph.Proofs.Walk.Termination
import SymbolGraph.Proofs.Walk.Twofold

/-!
# How often nodes are visited

The children of a node have it as their only parent, so a node is visited once for each of its places
under that parent, and for each time that the parent is visited. Files and declarations have one place;
a use of a type, a parameter, an annotation or an argument may have two.
-/

namespace SymbolGraph

variable {δ : Type} {world : World} {v : Visitor ReturnTypes δ Unit} {nodes order : List NodeId}
  {s t : SessionState ReturnTypes} {node child : NodeId}

/-! ## Records of orderly visitors -/

namespace Visitor

variable {x y : (List NodeId × δ) × SessionState ReturnTypes}

theorem Orderly.recorded {session : Session ReturnTypes} (hv : v.Orderly session) :
    v.recorded.Orderly session := by
  intro node x
  have hstate : ((node.accept v.recorded).after session x).2 =
      ((node.accept v).after session (x.1.2, x.2)).2 := by
    have hmirrors := Mirrors.accept v node session x
    simp only [Action.after]
    rw [← hmirrors]
    cases node.accept v.recorded session x <;> rfl
  rw [hstate]
  exact hv node (x.1.2, x.2)

/-- A traversal shows the nodes in preorder. -/
theorem Traverses.preorder (hv : v.Orderly world.session) (wf : x.2.caches.WellFormed)
    (h : v.recorded.Traverses world.session nodes x (.ok () y)) :
    ∃ order, y.1.1 = x.1.1 ++ order ∧ Preorder world.session y.2 nodes order := by
  generalize hresult : (.ok () y : Visit.Outcome ReturnTypes (List NodeId × δ)) = result at h
  induction h generalizing y with
  | done x =>
    cases hresult
    exact ⟨[], (List.append_nil _).symm, .nil⟩
  | stopped | stoppedBelow => cases hresult
  | @next node _ _ x _ _ _ henter hnodes hrest ihbelow ihrest =>
    subst hresult
    obtain ⟨hnode, s, hchildren⟩ := recorded_of_enter wf henter
    have hfirst := enter_reaches hv.recorded node x
    rw [Action.after_of_ok henter] at hfirst
    have hbelow := hnodes.reaches hv.recorded
    have hafter := hrest.reaches hv.recorded
    obtain ⟨below, hseen, hpreorder⟩ := ihbelow (hfirst.wellFormed wf) rfl
    obtain ⟨after, hseen', hpreorder'⟩ := ihrest ((hfirst.trans hbelow).wellFormed wf) rfl
    -- The children of the node, and what is below them, are still the same in the end.
    have hagain := (node.children_lasting rfl).again hchildren (hbelow.trans hafter).grows
    refine ⟨node :: (below ++ after), ?_, .cons hagain (hpreorder.grows rfl hafter.grows) hpreorder'⟩
    rw [hseen', hseen, hnode]
    simp

end Visitor

/-! ## The tree of a session -/

theorem Preorder.children_of_mem {session : Session ReturnTypes} (h : Preorder session t nodes order)
    (hnode : node ∈ order) : ∃ children, node.children session t = .ok children t := by
  induction h with
  | nil => cases hnode
  | cons hchildren _ _ ihbelow ihafter =>
    rcases List.mem_cons.mp hnode with rfl | hnode
    · exact ⟨_, hchildren⟩
    · rcases List.mem_append.mp hnode with hnode | hnode
      · exact ihbelow hnode
      · exact ihafter hnode

/-- The children that a node is found to have. -/
def NodeId.listed (session : Session ReturnTypes) (t : SessionState ReturnTypes) (node : NodeId) :
    Option (List NodeId) :=
  node.children.answer? session t

theorem Preorder.forest {session : Session ReturnTypes} (h : Preorder session t nodes order) :
    Forest (NodeId.listed session t) nodes order := by
  induction h with
  | nil => exact .nil
  | cons hchildren _ _ ihbelow ihafter =>
    refine .cons ?_ ihbelow ihafter
    simp [NodeId.listed, Action.answer?, hchildren]

/-- A node that is listed has the children that it is found to have. -/
theorem Preorder.children_of_listed {session : Session ReturnTypes}
    (h : Preorder session t nodes order) (hnode : node ∈ order) {children : List NodeId}
    (hchildren : node.listed session t = some children) :
    node.children session t = .ok children t := by
  obtain ⟨listed, hlisted⟩ := h.children_of_mem hnode
  simp only [NodeId.listed, Action.answer?, hlisted, Option.some.injEq] at hchildren
  exact hchildren ▸ hlisted

/-! ## What has one place only -/

/-- Files, declarations and accessors. -/
def NodeKind.isSingle : NodeKind → Bool
  | .file | .classLike | .function | .property | .typeParameter | .getter | .setter => true
  | .valueParameter | .typeReference | .classifierReference | .callableReference
  | .dynamicReference | .annotationUse | .valueArgument => false

theorem Twofold.isSingle_eq_false {kind : NodeKind} {w : kind.Wrapper} {k : NodeKey}
    (h : Twofold world s kind w k) : k.kind.isSingle = false := by
  cases h <;> rfl

/-- A node in the key of one that has one place only is a property. -/
theorem NodeKey.kind_of_holder {k : NodeKey} (h : k.holder = some node) (hk : k.kind.isSingle = true) :
    node.kind = .property := by
  obtain ⟨kind, key⟩ := k
  cases kind <;> cases hk <;> cases h <;> rfl

namespace NodeKey.Below

variable {contents accessories : List SymbolKey} {k : NodeKey}

theorem kind_ne_file (h : k.Below node contents accessories) : k.kind ≠ .file := by
  intro hkind
  obtain ⟨kind, key⟩ := k
  subst hkind
  generalize hk : (⟨.file, key⟩ : NodeKey) = k at h
  cases h with
  | annotationUse | reference => cases hk
  | part _ hholder | accessory _ _ hholder =>
    subst hk
    cases hholder
  | declaration _ hkey =>
    subst hk
    cases hkey

/-- What has one place only lies under something that has one place only. -/
theorem isSingle {w : node.kind.Wrapper}
    (h : k.Below node (node.kind.contents w) (node.kind.accessories w))
    (hk : k.kind.isSingle = true) : node.kind.isSingle = true := by
  cases h with
  | annotationUse | reference => cases hk
  | part hnode hholder =>
    have hproperty := kind_of_holder hholder hk
    rcases hnode with hnode | hnode <;> cases hnode.symm.trans hproperty
  | accessory _ _ hholder =>
    rw [kind_of_holder hholder hk]
    rfl
  | declaration hkey =>
    obtain ⟨kind, index⟩ := node
    cases kind <;> first | rfl | cases hkey

end NodeKey.Below

/-- A child lies right below its parent. -/
theorem NodeId.below_of_children (hs : Tidy world.table s) {children : List NodeId}
    (h : node.children world.session s = .ok children s) (hchild : child ∈ children) :
    ∃ (w : node.kind.Wrapper) (k : NodeKey), k.kind = child.kind ∧
      k.Below node (node.kind.contents w) (node.kind.accessories w) := by
  obtain ⟨_, _, w, hw, keys, hkeys, hshown⟩ := node.children_yields.of_ok hs h
  obtain ⟨k, hk, _, _, rfl⟩ := View.list_exists hshown hchild
  have hbelow := hkeys.below hk
  rw [show ((Kind.node node.kind).idOf w).node = node from
    congrArg Handle.node (hs.genuine.idOf_eq hw)] at hbelow
  exact ⟨w, k, rfl, hbelow⟩

/-- A node is the child of one node only. -/
theorem NodeId.unique_of_children (htable : world.table.Consistent) (hs : Tidy world.table s)
    {other : NodeId} {children siblings : List NodeId}
    (h : node.children world.session s = .ok children s)
    (h' : other.children world.session s = .ok siblings s) (hchild : child ∈ children)
    (hsibling : child ∈ siblings) : node = other := by
  obtain ⟨_, hnode⟩ := node.parent_of_children htable hs h hchild hs (.refl _)
  obtain ⟨_, hother⟩ := other.parent_of_children htable hs h' hsibling hs (.refl _)
  cases hnode.symm.trans hother
  rfl

/-- A child stands once among the children of its parent, unless there are two places for it. -/
theorem NodeId.count_of_children (hs : Tidy world.table s) (hlisted : world.table.ListedOnce)
    (hannotations : world.table.AnnotatedOnce) {children : List NodeId}
    (h : node.children world.session s = .ok children s) (hchild : child ∈ children) :
    children.count child = 1 ∨ TwofoldUnder world s node child := by
  by_cases htwo : 2 ≤ children.count child
  · exact .inr (NodeId.twofold_of_children hs hlisted hannotations h
      (List.duplicate_iff_two_le_count.mpr htwo))
  · have hpos := List.count_pos_iff.mpr hchild
    omega

theorem NodeId.count_of_isSingle (hs : Tidy world.table s) (hlisted : world.table.ListedOnce)
    (hannotations : world.table.AnnotatedOnce) {children : List NodeId}
    (h : node.children world.session s = .ok children s) (hchild : child ∈ children)
    (hkind : child.kind.isSingle = true) : children.count child = 1 := by
  rcases node.count_of_children hs hlisted hannotations h hchild with
    hone | ⟨w, k, _, ⟨_, _, rfl⟩, htwofold⟩
  · exact hone
  · cases htwofold.isSingle_eq_false.symm.trans hkind

/-! ## Visits -/

namespace Preorder

variable (htable : world.table.Consistent) (ht : Tidy world.table t)
  (h : Preorder world.session t nodes order)

include htable ht h

/-- A node is listed for each of its places under its parent. -/
theorem count_of_child {parent : NodeId} {children : List NodeId}
    (hchildren : parent.children world.session t = .ok children t) (hchild : child ∈ children) :
    order.count child = nodes.count child + order.count parent * children.count child := by
  refine h.forest.count_of_parent (by simp [NodeId.listed, Action.answer?, hchildren]) ?_
  intro other hother siblings hsiblings hsibling
  exact other.unique_of_children htable ht (h.children_of_listed hother hsiblings) hchildren hsibling
    hchild

omit htable in
theorem count_of_file (hkind : child.kind = .file) : order.count child = nodes.count child := by
  refine h.forest.count_of_root fun other hother siblings hsiblings hsibling => ?_
  obtain ⟨_, k, hk, hbelow⟩ :=
    other.below_of_children ht (h.children_of_listed hother hsiblings) hsibling
  exact hbelow.kind_ne_file (hk.trans hkind)

end Preorder

/-- A walk from a file comes to the file once, and to any other node as often as to its parent for each
place that the node has among the children of the parent. There is one place, or there are several in the
ways that were told; files, declarations and accessors always have one. -/
theorem walk_visits {types : ReturnTypes} (htable : world.table.Consistent)
    (hlisted : world.table.ListedOnce) (hannotations : world.table.AnnotatedOnce)
    (hs : Reaches world.session (.start types) s) (hv : v.Orderly world.session) {root : NodeId}
    (hroot : root.kind = .file) {data data' : δ} {steps : Nat}
    (hwalk : v.walk steps [root] world.session (data, s) = .ok [] (data', t)) :
    ∃ visited,
      v.recorded.walk steps [root] world.session (([], data), s) = .ok [] ((visited, data'), t) ∧
      visited.count root = 1 ∧
      (∀ node ∈ visited, node ≠ root → ∃ parent ∈ visited, ∃ children,
        parent.children world.session t = .ok children t ∧ node ∈ children ∧
        visited.count node = visited.count parent * children.count node ∧
        (children.count node = 1 ∨ TwofoldUnder world t parent node)) ∧
      (∀ node ∈ visited, node.kind.isSingle = true → visited.count node = 1) ∧
      ((∀ parent ∈ visited, ∀ child, ¬ TwofoldUnder world t parent child) → visited.Nodup) := by
  obtain ⟨visited, hrecorded⟩ := (Mirrors.walk v steps [root]).of_ok [] hwalk
  have htraverses := Visitor.Traverses.of_walk_ok hrecorded
  obtain ⟨_, rfl, hpreorder⟩ := htraverses.preorder hv (hs.wellFormed .empty)
  have ht : Tidy world.table t :=
    (htraverses.reaches hv.recorded).tidy (hs.tidy (.start world.table types))
  have hforest := hpreorder.forest
  have hchildren {node : NodeId} (hnode : node ∈ visited) {children : List NodeId}
      (h : node.listed world.session t = some children) := hpreorder.children_of_listed hnode h
  have hfile : visited.count root = 1 := by
    rw [hpreorder.count_of_file ht hroot]
    simp
  refine ⟨visited, hrecorded, hfile, ?_, ?_, ?_⟩
  · intro node hnode hne
    rcases hforest.exists_parent node hnode with hmem | ⟨parent, hparent, children, hlist, hchild⟩
    · exact absurd (List.mem_singleton.mp hmem) hne
    · have hlist := hchildren hparent hlist
      refine ⟨parent, hparent, children, hlist, hchild, ?_,
        parent.count_of_children ht hlisted hannotations hlist hchild⟩
      rw [hpreorder.count_of_child htable ht hlist hchild,
        List.count_eq_zero.mpr (by simpa using hne), Nat.zero_add]
  · -- What has one place only has it under something that has one place only.
    refine hforest.forall_mem (by simpa using fun _ => hfile) ?_
    intro parent hparent children hlist hsingle child hchild hkind
    have hlist := hchildren hparent hlist
    obtain ⟨w, k, hk, hbelow⟩ := parent.below_of_children ht hlist hchild
    have hone := hsingle (hbelow.isSingle (hk ▸ hkind))
    by_cases hrooted : child = root
    · exact hrooted ▸ hfile
    · rw [hpreorder.count_of_child htable ht hlist hchild, hone,
        parent.count_of_isSingle ht hlisted hannotations hlist hchild hkind]
      simp [List.count_eq_zero, hrooted]
  · intro hnone
    -- A file is nobody's child, two nodes have no child in common, and no node has one twice.
    refine hforest.nodup (List.nodup_singleton root) ?_ ?_ ?_
    · intro a ha other hother siblings hlist hsibling
      obtain ⟨_, k, hk, hbelow⟩ := other.below_of_children ht (hchildren hother hlist) hsibling
      exact hbelow.kind_ne_file (hk.trans (List.mem_singleton.mp ha ▸ hroot))
    · intro b hb c hc listed others hlist hothers a ha ha'
      exact b.unique_of_children htable ht (hchildren hb hlist) (hchildren hc hothers) ha ha'
    · intro b hb listed hlist
      refine List.nodup_iff_forall_not_duplicate.mpr fun a ha => hnone b hb a ?_
      exact NodeId.twofold_of_children ht hlisted hannotations (hchildren hb hlist) ha

/-- A draft with an extension property of the type that it extends. -/
def Draft.selfExtension : Draft where
  files := #[{ path := "a.kt", package := "", declarations := [⟨0⟩] }]
  symbols := #[{ name := some "p", file := some ⟨0⟩
                 details := .property { type := ⟨0⟩, receiverType := some ⟨0⟩ } }]
  types := #[.ofClass "A"]

namespace Draft.selfExtension

theorem symbol_eq {key : SymbolKey} {symbol : SymbolRecord}
    (h : Draft.selfExtension.symbols[key.index]? = some symbol) :
    symbol = { name := some "p", file := some ⟨0⟩
               details := .property { type := ⟨0⟩, receiverType := some ⟨0⟩ } } := by
  obtain ⟨_ | _⟩ := key <;> cases h
  rfl

theorem consistent : Draft.selfExtension.finish.Consistent := by
  constructor
  · intro owner key symbol member howner hkey _
    cases symbol_eq howner
    cases hkey
  · rintro ⟨_ | _⟩ key record member hfile hkey hmember <;> cases hfile
    cases symbol_eq hmember
    exact ⟨rfl, rfl⟩

theorem annotatedOnce : Draft.selfExtension.finish.AnnotatedOnce := by
  constructor
  · rintro ⟨_ | _⟩ record h <;> cases h
    exact .nil
  · intro key record h
    cases symbol_eq h
    exact .nil
  · rintro ⟨_ | _⟩ record h <;> cases h
    exact .nil

theorem acyclic : Draft.selfExtension.Acyclic := by
  constructor
  · intro key hkey
    have hlists {owner key : SymbolKey} : ¬ Draft.selfExtension.Lists owner key := by
      rintro ⟨symbol, hsymbol, hkey⟩
      cases symbol_eq hsymbol
      cases hkey
    cases hkey with
    | single hkey | tail _ hkey => exact hlists hkey
  · rintro ⟨_ | _⟩ record h part hpart <;> cases h
    cases hpart

end Draft.selfExtension

/-- The type of the property is also the type that it extends, and is visited twice. -/
theorem walk_visits_twice :
    let world : World := { table := Draft.selfExtension.finish }
    let s := (Query.file ⟨0⟩ : Query ReturnTypes _).after world.session (.start {})
    let v : Visitor ReturnTypes (List NodeId) Unit := .observer fun _ _ => none
    Draft.selfExtension.Acyclic ∧ world.table.Consistent ∧ world.table.ListedOnce ∧
      world.table.AnnotatedOnce ∧ ∃ data t visited,
        v.walk 6 [⟨.file, 0⟩] world.session ([], s) = .ok [] (data, t) ∧
        v.recorded.walk 6 [⟨.file, 0⟩] world.session (([], []), s) = .ok [] ((visited, data), t) ∧
        ¬ visited.Nodup := by
  intro world s v
  refine ⟨Draft.selfExtension.acyclic, Draft.selfExtension.consistent, by decide +kernel,
    Draft.selfExtension.annotatedOnce, ?_⟩
  have hok : (v.walk 6 [⟨.file, 0⟩]).answer? world.session ([], s) = some [] := by decide +kernel
  have htwice : ¬ ((v.recorded.walk 6 [⟨.file, 0⟩]).after world.session (([], []), s)).1.1.Nodup := by
    decide +kernel
  obtain ⟨⟨data, t⟩, hwalk⟩ := Action.exists_ok_of_answer? hok
  obtain ⟨visited, hrecorded⟩ := (Mirrors.walk v 6 [⟨.file, 0⟩]).of_ok [] hwalk
  rw [Action.after_of_ok hrecorded] at htwice
  exact ⟨data, t, visited, hwalk, hrecorded, htwice⟩

/-- The file and the property are visited once, also there. -/
theorem walk_visits_selfExtension :
    let world : World := { table := Draft.selfExtension.finish }
    let s := (Query.file ⟨0⟩ : Query ReturnTypes _).after world.session (.start {})
    let v : Visitor ReturnTypes (List NodeId) Unit := .observer fun _ _ => none
    ∃ data t visited,
      v.recorded.walk 6 [⟨.file, 0⟩] world.session (([], []), s) = .ok [] ((visited, data), t) ∧
      visited.count ⟨.file, 0⟩ = 1 ∧ visited.count ⟨.property, 0⟩ = 1 := by
  intro world s v
  have hs : Reaches world.session (.start {}) s := .operate (.wrap (.file ⟨0⟩)) .stay
  have hok : (v.walk 6 [⟨.file, 0⟩]).answer? world.session ([], s) = some [] := by decide +kernel
  have hshown : ((v.recorded.walk 6 [⟨.file, 0⟩]).after world.session (([], []), s)).1.1 =
      [⟨.file, 0⟩, ⟨.property, 0⟩, ⟨.typeReference, 0⟩, ⟨.classifierReference, 0⟩,
        ⟨.typeReference, 0⟩, ⟨.classifierReference, 0⟩] := by decide +kernel
  obtain ⟨⟨data, t⟩, hwalk⟩ := Action.exists_ok_of_answer? hok
  have hv : v.Orderly world.session := ((Visitor.observer_quiet _).civil _).orderly
  obtain ⟨visited, hrecorded, hfile, _, hsingle, _⟩ :=
    walk_visits Draft.selfExtension.consistent (by decide +kernel) Draft.selfExtension.annotatedOnce
      hs hv rfl hwalk
  rw [Action.after_of_ok hrecorded] at hshown
  cases hshown
  exact ⟨data, t, _, hrecorded, hfile, hsingle ⟨.property, 0⟩ (by decide) rfl⟩

end SymbolGraph
