import Mathlib.Data.List.Nodup
import Mathlib.Logic.Relation

/-!
# Trees in preorder

What is listed when trees are laid out in preorder, and how often. Nothing is asked of the trees but
that they come to an end: a thing may have several places, in one tree or in different ones.
-/

namespace SymbolGraph

variable {α : Type} {children : α → Option (List α)} {roots rest order : List α} {a b parent : α}

/-- The trees under some roots in preorder. What has no children at all is no part of a tree. -/
inductive Forest (children : α → Option (List α)) : List α → List α → Prop
  | nil : Forest children [] []
  | cons {a : α} {listed rest below after : List α} : children a = some listed →
    Forest children listed below → Forest children rest after →
    Forest children (a :: rest) (a :: (below ++ after))

namespace Forest

theorem unique (h : Forest children roots order) {other : List α}
    (h' : Forest children roots other) : order = other := by
  induction h generalizing other with
  | nil =>
    cases h'
    rfl
  | cons hlisted _ _ ihbelow ihafter =>
    cases h' with | cons hlisted' hbelow hafter =>
    cases hlisted.symm.trans hlisted'
    rw [ihbelow hbelow, ihafter hafter]

theorem append {below after : List α} (h : Forest children roots below)
    (hrest : Forest children rest after) : Forest children (roots ++ rest) (below ++ after) := by
  induction h with
  | nil => exact hrest
  | cons hlisted hbelow _ _ ih =>
    rw [List.cons_append, List.cons_append, List.append_assoc]
    exact .cons hlisted hbelow ih

/-! ## Members -/

/-- What holds of the roots, and of the children of what it holds of, holds of everything listed. -/
theorem forall_mem {P : α → Prop} (h : Forest children roots order) (hroots : ∀ a ∈ roots, P a)
    (hchildren : ∀ a ∈ order, ∀ listed, children a = some listed → P a → ∀ b ∈ listed, P b) :
    ∀ a ∈ order, P a := by
  induction h with
  | nil => exact hroots
  | @cons a _ _ _ _ hlisted _ _ ihbelow ihafter =>
    have ha := hroots a List.mem_cons_self
    have hbelow := ihbelow (hchildren a List.mem_cons_self _ hlisted ha) fun b hb =>
      hchildren b (List.mem_cons_of_mem _ (List.mem_append_left _ hb))
    have hafter := ihafter (fun b hb => hroots b (List.mem_cons_of_mem _ hb)) fun b hb =>
      hchildren b (List.mem_cons_of_mem _ (List.mem_append_right _ hb))
    simp only [List.forall_mem_cons, List.forall_mem_append]
    exact ⟨ha, hbelow, hafter⟩

/-- Everything listed is a root or the child of something listed. -/
theorem exists_parent (h : Forest children roots order) :
    ∀ a ∈ order, a ∈ roots ∨ ∃ b ∈ order, ∃ listed, children b = some listed ∧ a ∈ listed :=
  h.forall_mem (fun _ ha => .inl ha) fun b hb listed hlisted _ _ ha =>
    .inr ⟨b, hb, listed, hlisted, ha⟩

theorem root_mem (h : Forest children roots order) (ha : a ∈ roots) : a ∈ order := by
  induction h with
  | nil => exact ha
  | cons _ _ _ _ ihafter =>
    rcases List.mem_cons.mp ha with rfl | ha
    · exact List.mem_cons_self
    · exact List.mem_cons_of_mem _ (List.mem_append_right _ (ihafter ha))

theorem child_mem (h : Forest children roots order) (ha : a ∈ order) {listed : List α}
    (hlisted : children a = some listed) (hb : b ∈ listed) : b ∈ order := by
  induction h with
  | nil => cases ha
  | cons hfirst hbelow _ ihbelow ihafter =>
    rcases List.mem_cons.mp ha with rfl | ha
    · cases hfirst.symm.trans hlisted
      exact List.mem_cons_of_mem _ (List.mem_append_left _ (hbelow.root_mem hb))
    · exact List.mem_cons_of_mem _ (List.mem_append.mpr
        ((List.mem_append.mp ha).imp ihbelow ihafter))

/-- Listed is what one gets to from the roots. -/
theorem mem_iff (h : Forest children roots order) : a ∈ order ↔ ∃ root ∈ roots,
    Relation.ReflTransGen (fun a b => ∃ listed, children a = some listed ∧ b ∈ listed) root a := by
  constructor
  · let P (a : α) : Prop := ∃ root ∈ roots,
      Relation.ReflTransGen (fun a b => ∃ listed, children a = some listed ∧ b ∈ listed) root a
    refine h.forall_mem (P := P) (fun a ha => ⟨a, ha, .refl⟩) ?_ a
    rintro b _ listed hlisted ⟨root, hroot, hchain⟩ c hc
    exact ⟨root, hroot, hchain.tail ⟨listed, hlisted, hc⟩⟩
  · rintro ⟨root, hroot, hchain⟩
    induction hchain with
    | refl => exact h.root_mem hroot
    | tail _ hchild ih =>
      obtain ⟨listed, hlisted, hmem⟩ := hchild
      exact h.child_mem ih hlisted hmem

/-! ## Places -/

variable [DecidableEq α]

/-- What is the child of one thing only has a place among the roots for each time that it is one, and
for each place of its parent as many as it has among the children of the parent. -/
theorem count_of_parent (h : Forest children roots order) {siblings : List α}
    (hparent : children parent = some siblings)
    (honly : ∀ b ∈ order, ∀ listed, children b = some listed → a ∈ listed → b = parent) :
    order.count a = roots.count a + order.count parent * siblings.count a := by
  induction h with
  | nil => simp
  | @cons b listed rest below after hlisted _ _ ihbelow ihafter =>
    have hbelow := ihbelow fun b hb =>
      honly b (List.mem_cons_of_mem _ (List.mem_append_left _ hb))
    have hafter := ihafter fun b hb =>
      honly b (List.mem_cons_of_mem _ (List.mem_append_right _ hb))
    -- The children of the first root are those of the parent, or the thing is not among them.
    have hfirst : listed.count a = (if b = parent then 1 else 0) * siblings.count a := by
      split
      next hb =>
        subst hb
        cases hlisted.symm.trans hparent
        rw [Nat.one_mul]
      next hb =>
        rw [Nat.zero_mul, List.count_eq_zero]
        exact fun ha => hb (honly b List.mem_cons_self _ hlisted ha)
    simp only [List.count_cons, List.count_append, beq_iff_eq, hbelow, hafter, hfirst]
    rw [Nat.add_mul, Nat.add_mul]
    omega

/-- What is no child of anything has the places that it has among the roots. -/
theorem count_of_root (h : Forest children roots order)
    (hroot : ∀ b ∈ order, ∀ listed, children b = some listed → a ∉ listed) :
    order.count a = roots.count a := by
  induction h with
  | nil => rfl
  | @cons b listed rest below after hlisted _ _ ihbelow ihafter =>
    have hbelow := ihbelow fun b hb =>
      hroot b (List.mem_cons_of_mem _ (List.mem_append_left _ hb))
    have hafter := ihafter fun b hb =>
      hroot b (List.mem_cons_of_mem _ (List.mem_append_right _ hb))
    have hfirst : listed.count a = 0 :=
      List.count_eq_zero.mpr (hroot b List.mem_cons_self _ hlisted)
    simp only [List.count_cons, List.count_append, hbelow, hafter, hfirst]
    omega

/-- Nothing is listed twice if there are no two places where it could come from. -/
theorem nodup (h : Forest children roots order) (hroots : roots.Nodup)
    (hroot : ∀ a ∈ roots, ∀ b ∈ order, ∀ listed, children b = some listed → a ∉ listed)
    (honly : ∀ b ∈ order, ∀ c ∈ order, ∀ listed others, children b = some listed →
      children c = some others → ∀ a ∈ listed, a ∈ others → b = c)
    (hlisted : ∀ b ∈ order, ∀ listed, children b = some listed → listed.Nodup) : order.Nodup := by
  have hplaces : ∀ a ∈ order, order.count a ≤ 1 := by
    refine h.forall_mem (fun a ha => ?_) fun b hb listed hchildren hcount a ha => ?_
    · rw [h.count_of_root (hroot a ha)]
      exact List.nodup_iff_count_le_one.mp hroots a
    · have hnone : roots.count a = 0 :=
        List.count_eq_zero.mpr fun hmem => hroot a hmem b hb listed hchildren ha
      have hone := List.nodup_iff_count_le_one.mp (hlisted b hb listed hchildren) a
      rw [h.count_of_parent hchildren fun c hc others hothers hmem =>
        (honly c hc b hb others listed hothers hchildren a hmem ha), hnone, Nat.zero_add]
      exact Nat.mul_le_mul hcount hone
  refine List.nodup_iff_count_le_one.mpr fun a => ?_
  by_cases ha : a ∈ order
  · exact hplaces a ha
  · rw [List.count_eq_zero.mpr ha]
    exact Nat.zero_le 1

end Forest

end SymbolGraph
