import Mathlib.Data.List.Basic
import SymbolGraph.Proofs.Tidy.Run

/-!
# Annotations of a property and its accessors

An annotation that is written on a property belongs to one of four nodes: the property, its getter, its
setter, or the parameter of its setter. Each of them selects its own by a filter of its own. Together the
filters neither lose an occurrence nor take one twice.
-/

namespace SymbolGraph

/-! ## Lists in groups -/

/-- The items whose group is one of these, group by group. -/
theorem flatMap_filter_perm {α β : Type} [DecidableEq β] (group : α → β) {groups : List β}
    (hdistinct : groups.Nodup) (items : List α) :
    (groups.flatMap fun b => items.filter (group · = b)).Perm (items.filter (group · ∈ groups)) := by
  induction groups with
  | nil => simp
  | cons b groups ih =>
    obtain ⟨hnew, hdistinct⟩ := List.nodup_cons.mp hdistinct
    rw [List.flatMap_cons]
    refine ((ih hdistinct).append_left _).trans ?_
    -- The items of the first group and the others are what the two sides of one filter select.
    have hsplit := List.filter_append_perm (group · = b) (items.filter (group · ∈ b :: groups))
    rw [List.filter_filter, List.filter_filter] at hsplit
    convert hsplit using 2
    · exact List.filter_congr fun a _ => by by_cases h : group a = b <;> simp [h]
    · exact List.filter_congr fun a _ => by by_cases h : group a = b <;> simp [h, hnew]

/-! ## Shares -/

namespace UseSiteTarget

/-- The node that an annotation of a property belongs to, by the target of the annotation. -/
def bearer : Option UseSiteTarget → NodeKind
  | some getter => .getter
  | some setter => .setter
  | some setterParameter => .valueParameter
  | _ => .property

/-- What is not aimed at an accessor or its parameter stays with the property. -/
theorem bearer_eq_property_iff {target : Option UseSiteTarget} :
    bearer target = .property ↔ target.any isAccessor = false := by
  rcases target with _ | _ | _ | _ | _ | _ | _ | _ | _ | _ <;> decide

/-- Only one target selects a node other than the property. -/
theorem bearer_eq_iff {pulled : UseSiteTarget} (h : pulled.isAccessor = true)
    {target : Option UseSiteTarget} : bearer target = bearer (some pulled) ↔ target = some pulled := by
  cases pulled <;> cases h <;> rcases target with _ | _ | _ | _ | _ | _ | _ | _ | _ | _ <;> decide

theorem bearer_mem (target : Option UseSiteTarget) :
    bearer target ∈ [NodeKind.property, .getter, .setter, .valueParameter] := by
  rcases target with _ | _ | _ | _ | _ | _ | _ | _ | _ | _ <;> decide

end UseSiteTarget

namespace SymbolTable

/-- The target of an annotation, if it has one. -/
def target (table : SymbolTable) (key : AnnotationKey) : Option UseSiteTarget :=
  table.annotations[key.index]?.bind AnnotationRecord.target

/-- Those annotations of a property that belong to its node of this kind. -/
def share (table : SymbolTable) (bearer : NodeKind) (keys : List AnnotationKey) : List AnnotationKey :=
  keys.filter fun key => UseSiteTarget.bearer (table.target key) = bearer

variable {table : SymbolTable} {keys : List AnnotationKey}

theorem aimed_eq_filter (h : table.KnowsAnnotations keys) (wanted : Option UseSiteTarget → Bool) :
    table.aimed wanted keys = keys.filter fun key => wanted (table.target key) := by
  refine List.filter_congr fun key hkey => ?_
  rw [target, Array.getElem?_eq_getElem (h key hkey)]
  rfl

/-- The property keeps its share. -/
theorem aimed_kept (h : table.KnowsAnnotations keys) :
    table.aimed (fun target => !target.any UseSiteTarget.isAccessor) keys = table.share .property keys := by
  rw [aimed_eq_filter h]
  refine List.filter_congr fun key _ => ?_
  simp [UseSiteTarget.bearer_eq_property_iff]

/-- An accessor or its parameter takes its share. -/
theorem aimed_pulled (h : table.KnowsAnnotations keys) {pulled : UseSiteTarget}
    (hpulled : pulled.isAccessor = true) :
    table.aimed (· = some pulled) keys = table.share (UseSiteTarget.bearer (some pulled)) keys := by
  rw [aimed_eq_filter h]
  refine List.filter_congr fun key _ => ?_
  simp [UseSiteTarget.bearer_eq_iff hpulled]

/-- Each annotation of a property is in one share, as often as the property has it. -/
theorem shares_perm (table : SymbolTable) (keys : List AnnotationKey) :
    List.Perm (table.share .property keys ++ table.share .getter keys ++ table.share .setter keys ++
      table.share .valueParameter keys) keys := by
  have hgroups : [NodeKind.property, .getter, .setter, .valueParameter].Nodup := by decide
  have hperm := flatMap_filter_perm (fun key => UseSiteTarget.bearer (table.target key)) hgroups keys
  rw [List.filter_eq_self.mpr fun key _ =>
    decide_eq_true (UseSiteTarget.bearer_mem (table.target key))] at hperm
  simpa [share] using hperm

end SymbolTable

/-! ## Lists of annotations -/

/-- The node lists its uses of the annotations under these keys. -/
def NodeId.Bears (node : NodeId) (keys : List AnnotationKey) (annotations : List AnnotationNode) : Prop :=
  annotations.map (·.key) = keys ∧ ∀ a ∈ annotations, a.parent = some node

variable {world : World} {table : SymbolTable} {caches : Caches} {types : ReturnTypes}
  {s : SessionState ReturnTypes}

theorem View.exists_of_option_map {α β γ : Type} {v : View α β} {f : γ → β} {o : Option γ} {a : α}
    (h : v.option.Shows caches (some a) (o.map f)) : ∃ c, o = some c ∧ v.Shows caches a (f c) := by
  cases o with
  | none => cases h
  | some c =>
    cases h with | some h =>
    exact ⟨c, rfl, h⟩

namespace Fact

theorem bears_of_annotations (hgenuine : caches.Genuine table) {node : NodeId}
    {keys : List AnnotationKey} {annotations : List AnnotationNode}
    (h : (Fact.annotations node keys).Holds caches annotations) : node.Bears keys annotations := by
  induction keys generalizing annotations with
  | nil =>
    cases h
    exact ⟨rfl, List.forall_mem_nil _⟩
  | cons key keys ih =>
    cases h with | cons hfirst hrest =>
    cases hgenuine.made (.node .annotationUse) hfirst with | annotationUse _ id hrecord =>
    obtain ⟨hkeys, hparents⟩ := ih hrest
    exact ⟨congrArg (key :: ·) hkeys, List.forall_mem_cons.mpr ⟨rfl, hparents⟩⟩

/-- An accessor lists those of its own that are not meant for another node, and then its share. -/
theorem bears_of_accessorAnnotations (hgenuine : caches.Genuine table) {a : Accessor} {node : NodeId}
    {excluded pulled : UseSiteTarget} (hpulled : pulled.isAccessor = true) {p : PropertyNode}
    (hp : caches.Issued a.receiver p) {annotations : List AnnotationNode}
    (h : (accessorAnnotations table a node excluded pulled).Holds caches annotations) :
    node.Bears (a.symbol.annotations.filter (table.target · ≠ some excluded) ++
      table.share (UseSiteTarget.bearer (some pulled)) p.symbol.annotations) annotations := by
  obtain ⟨property, hproperty, hknown, h⟩ := h
  cases Option.some.inj (hproperty.symm.trans hp)
  obtain ⟨hown, hraw⟩ := List.forall_mem_append.mp hknown
  rw [Accessor.annotationKeys, SymbolTable.aimed_pulled hraw hpulled,
    SymbolTable.aimed_eq_filter hown] at h
  exact bears_of_annotations hgenuine h

end Fact

/-! ## Accessors as they are read -/

/-- A property, and its getter, its setter and the parameter of its setter as they are read from it. -/
structure PropertyNode.Accessed (session : Session ReturnTypes) (s : SessionState ReturnTypes)
    (p : PropertyNode) (g : GetterNode) (w : SetterNode) (v : ValueParameterNode) : Prop where
  property_issued : s.caches.Issued p.id p
  getter_issued : s.caches.Issued g.id g
  setter_issued : s.caches.Issued w.id w
  parameter_issued : s.caches.Issued v.id v
  getter_read : ∃ t, p.getter session s = .ok (some g) t
  setter_read : ∃ t, p.setter session s = .ok (some w) t
  parameter_read : ∃ t, w.parameter session s = .ok v t

namespace PropertyNode.Accessed

variable {p : PropertyNode} {g : GetterNode} {w : SetterNode} {v : ValueParameterNode}

section

variable (h : p.Accessed world.session s g w v) (hs : Tidy world.table s)
include h hs

theorem getter_receiver : g.receiver = p.id := by
  obtain ⟨t, hread⟩ := h.getter_read
  obtain ⟨ht, -, hfact⟩ := (getter_yields h.property_issued).of_ok hs hread
  obtain ⟨key, -, hfound⟩ := View.exists_of_option_map hfact
  cases ht.genuine.made (.node .getter) hfound
  rfl

theorem setter_receiver : w.receiver = p.id := by
  obtain ⟨t, hread⟩ := h.setter_read
  obtain ⟨ht, -, hfact⟩ := (setter_yields h.property_issued).of_ok hs hread
  obtain ⟨key, -, hfound⟩ := View.exists_of_option_map hfact
  cases ht.genuine.made (.node .setter) hfound
  rfl

theorem parameter_parent : v.parent = w.id.node := by
  obtain ⟨t, hread⟩ := h.parameter_read
  obtain ⟨ht, -, key, -, hfound⟩ := (SetterNode.parameter_yields h.setter_issued).of_ok hs hread
  cases ht.genuine.made (.node .valueParameter) hfound
  rfl

end

end PropertyNode.Accessed

section

variable {p : PropertyNode} {g : GetterNode} {w : SetterNode} {v : ValueParameterNode}
  {annotations : List AnnotationNode}

theorem PropertyNode.annotations_bears (hs : Tidy world.table s) (hp : s.caches.Issued p.id p)
    (h : ∃ t, (Declaration.property p).annotations world.session s = .ok annotations t) :
    world.table.KnowsAnnotations p.symbol.annotations ∧
      p.id.node.Bears (world.table.share .property p.symbol.annotations) annotations := by
  obtain ⟨t, hrun⟩ := h
  obtain ⟨ht, -, hknown, hfact⟩ :=
    (LazyField.propertyAnnotations.read_yields hp).of_ok hs hrun
  have hkeys : (Declaration.property p).annotationKeys world.table =
      world.table.share .property p.symbol.annotations := SymbolTable.aimed_kept hknown
  rw [hkeys] at hfact
  exact ⟨hknown, Fact.bears_of_annotations ht.genuine hfact⟩

theorem GetterNode.annotations_bears (hs : Tidy world.table s) (hg : s.caches.Issued g.id g)
    (hp : s.caches.Issued g.receiver p) (h : ∃ t, g.annotations world.session s = .ok annotations t) :
    g.id.node.Bears (g.symbol.annotations.filter (world.table.target · ≠ some .setterParameter) ++
      world.table.share .getter p.symbol.annotations) annotations := by
  obtain ⟨t, hrun⟩ := h
  obtain ⟨ht, hgrows, hfact⟩ := (LazyField.getterAnnotations.read_yields hg).of_ok hs hrun
  exact Fact.bears_of_accessorAnnotations ht.genuine rfl (hp.grows hgrows) hfact

theorem SetterNode.annotations_bears (hs : Tidy world.table s) (hw : s.caches.Issued w.id w)
    (hp : s.caches.Issued w.receiver p) (h : ∃ t, w.annotations world.session s = .ok annotations t) :
    w.id.node.Bears (w.symbol.annotations.filter (world.table.target · ≠ some .getter) ++
      world.table.share .setter p.symbol.annotations) annotations := by
  obtain ⟨t, hrun⟩ := h
  obtain ⟨ht, hgrows, hfact⟩ := (LazyField.setterAnnotations.read_yields hw).of_ok hs hrun
  exact Fact.bears_of_accessorAnnotations ht.genuine rfl (hp.grows hgrows) hfact

/-- The parameter of a setter does not look at the targets of its own annotations. -/
theorem ValueParameterNode.annotations_bears (hs : Tidy world.table s) (hv : s.caches.Issued v.id v)
    (hw : s.caches.Issued w.id w) (hparent : v.parent = w.id.node) (hp : s.caches.Issued w.receiver p)
    (hknown : world.table.KnowsAnnotations p.symbol.annotations)
    (h : ∃ t, v.annotations world.session s = .ok annotations t) :
    v.id.node.Bears (v.symbol.annotations ++ world.table.share .valueParameter p.symbol.annotations)
      annotations := by
  obtain ⟨t, hrun⟩ := h
  obtain ⟨ht, hgrows, keys, hbears, hfact⟩ :=
    (LazyField.valueParameterAnnotations.read_yields hv).of_ok hs hrun
  -- The annotations of the parent's property are added only because the parent is a setter.
  cases hbears with
  | own hkind => exact absurd (congrArg NodeId.kind hparent) hkind
  | @setter s property hkind hsetter hproperty =>
    rw [hparent] at hsetter
    cases Option.some.inj (hsetter.symm.trans (hw.grows hgrows))
    cases Option.some.inj (hproperty.symm.trans (hp.grows hgrows))
    have hkeys : world.table.aimed (· = some .setterParameter) p.symbol.annotations =
        world.table.share .valueParameter p.symbol.annotations := SymbolTable.aimed_pulled hknown rfl
    rw [hkeys] at hfact
    exact Fact.bears_of_annotations ht.genuine hfact

/-- Annotations of a property are shared out. If the annotations of the property, its getter, its setter
and the parameter of the setter can all be read, then each of these nodes lists its share, in the order of
the property, after those of its own that it keeps; and each annotation of the property is in exactly one
share, as often as the property has it. -/
theorem useSite_annotations_shared (hs : Reaches world.session (.start types) s)
    (haccessed : p.Accessed world.session s g w v)
    {ofProperty ofGetter ofSetter ofParameter : List AnnotationNode}
    (hproperty : ∃ t, (Declaration.property p).annotations world.session s = .ok ofProperty t)
    (hgetter : ∃ t, g.annotations world.session s = .ok ofGetter t)
    (hsetter : ∃ t, w.annotations world.session s = .ok ofSetter t)
    (hparameter : ∃ t, v.annotations world.session s = .ok ofParameter t) :
    let share := fun bearer => world.table.share bearer p.symbol.annotations
    List.Perm (share .property ++ share .getter ++ share .setter ++ share .valueParameter)
        p.symbol.annotations ∧
      p.id.node.Bears (share .property) ofProperty ∧
      g.id.node.Bears (g.symbol.annotations.filter (world.table.target · ≠ some .setterParameter) ++
        share .getter) ofGetter ∧
      w.id.node.Bears (w.symbol.annotations.filter (world.table.target · ≠ some .getter) ++
        share .setter) ofSetter ∧
      v.id.node.Bears (v.symbol.annotations ++ share .valueParameter) ofParameter := by
  intro share
  have hs : Tidy world.table s := hs.tidy (.start _ _)
  have hp := haccessed.property_issued
  have hreceiver : s.caches.Issued w.receiver p := haccessed.setter_receiver hs ▸ hp
  obtain ⟨hknown, hkept⟩ := PropertyNode.annotations_bears hs hp hproperty
  refine ⟨world.table.shares_perm _, hkept, ?_, ?_, ?_⟩
  · exact GetterNode.annotations_bears hs haccessed.getter_issued (haccessed.getter_receiver hs ▸ hp) hgetter
  · exact SetterNode.annotations_bears hs haccessed.setter_issued hreceiver hsetter
  · exact ValueParameterNode.annotations_bears hs haccessed.parameter_issued haccessed.setter_issued
      (haccessed.parameter_parent hs) hreceiver hknown hparameter

end

/-- A table with a property whose annotations are aimed at all of its nodes, one of them twice, and whose
accessors have annotations of their own. -/
def SymbolTable.annotatedProperty : SymbolTable where
  symbols := #[
    { name := some "p", details := .property { type := ⟨0⟩, getter := some ⟨1⟩, setter := some ⟨2⟩ }
      annotations := [⟨1⟩, ⟨0⟩, ⟨3⟩, ⟨2⟩, ⟨1⟩] },
    { name := none, details := .getter ⟨0⟩, container := some ⟨0⟩, annotations := [⟨3⟩, ⟨0⟩] },
    { name := none, details := .setter (some ⟨3⟩), container := some ⟨0⟩, annotations := [⟨1⟩, ⟨2⟩] },
    { name := some "value", details := .valueParameter { type := ⟨0⟩ }, container := some ⟨2⟩
      annotations := [⟨1⟩] }]
  types := #[{ shape := .dynamic, rendered := "dynamic" }]
  annotations := #[
    { className := some "Mark" },
    { className := some "Mark", target := some .getter },
    { className := some "Mark", target := some .setter },
    { className := some "Mark", target := some .setterParameter }]

theorem useSite_annotations_shared_annotatedProperty :
    let world : World := { table := .annotatedProperty }
    ∃ (s : SessionState ReturnTypes) (p : PropertyNode) (g : GetterNode) (w : SetterNode)
      (v : ValueParameterNode) (ofProperty ofGetter ofSetter ofParameter : List AnnotationNode),
      Reaches world.session (.start world.table.returnTypes) s ∧ p.Accessed world.session s g w v ∧
        p.id.node.Bears [⟨0⟩] ofProperty ∧ g.id.node.Bears [⟨0⟩, ⟨1⟩, ⟨1⟩] ofGetter ∧
        w.id.node.Bears [⟨2⟩, ⟨2⟩] ofSetter ∧ v.id.node.Bears [⟨1⟩, ⟨3⟩] ofParameter := by
  intro world
  let table := SymbolTable.annotatedProperty
  let p : PropertyNode :=
    { id := ⟨0⟩, key := ⟨0⟩, symbol := table.symbols[0]
      details := { type := ⟨0⟩, getter := some ⟨1⟩, setter := some ⟨2⟩ } }
  let g : GetterNode :=
    { id := ⟨0⟩, key := ⟨1⟩, symbol := table.symbols[1], receiver := ⟨0⟩, returnTypeKey := ⟨0⟩ }
  let w : SetterNode :=
    { id := ⟨0⟩, key := ⟨2⟩, symbol := table.symbols[2], receiver := ⟨0⟩, parameterKey := some ⟨3⟩ }
  let v : ValueParameterNode :=
    { id := ⟨0⟩, key := ⟨3⟩, symbol := table.symbols[3], details := { type := ⟨0⟩ }
      parent := ⟨.setter, 0⟩ }
  let wrapped := (Operation.wrap (.property ⟨0⟩)).query.after world.session
    (.start world.table.returnTypes)
  let read {kind : Kind} {field : Field} (h : Handle kind) (f : LazyField kind field)
      (s : SessionState ReturnTypes) := (Operation.read h (.field f)).query.after world.session s
  let s := read w.id .setterParameter (read p.id .propertySetter (read p.id .propertyGetter wrapped))
  have hs : Reaches world.session (.start world.table.returnTypes) s :=
    .operate _ (.operate _ (.operate _ (.operate _ .stay)))
  have hp : s.caches.properties.get 0 = some p := by decide +kernel
  have hg : s.caches.getters.get 0 = some g := by decide +kernel
  have hw : s.caches.setters.get 0 = some w := by decide +kernel
  have hv : s.caches.valueParameters.get 0 = some v := by decide +kernel
  have haccessed : p.Accessed world.session s g w v :=
    { property_issued := hp
      getter_issued := hg
      setter_issued := hw
      parameter_issued := hv
      getter_read := Action.exists_ok_of_answer? (by decide +kernel)
      setter_read := Action.exists_ok_of_answer? (by decide +kernel)
      parameter_read := Action.exists_ok_of_answer? (by decide +kernel) }
  have answers {q : Query ReturnTypes (List AnnotationNode)}
      (h : (q.answer? world.session s).isSome = true) : ∃ as t, q world.session s = .ok as t :=
    (Option.isSome_iff_exists.mp h).imp fun _ => Action.exists_ok_of_answer?
  obtain ⟨ofProperty, hproperty⟩ := answers (q := (Declaration.property p).annotations) (by decide +kernel)
  obtain ⟨ofGetter, hgetter⟩ := answers (q := g.annotations) (by decide +kernel)
  obtain ⟨ofSetter, hsetter⟩ := answers (q := w.annotations) (by decide +kernel)
  obtain ⟨ofParameter, hparameter⟩ := answers (q := v.annotations) (by decide +kernel)
  obtain ⟨-, hshares⟩ :=
    useSite_annotations_shared hs haccessed hproperty hgetter hsetter hparameter
  exact ⟨s, p, g, w, v, ofProperty, ofGetter, ofSetter, ofParameter, hs, haccessed, hshares⟩

end SymbolGraph
