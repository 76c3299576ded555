import SymbolGraph.Identity.Cache

/-!
# How an identity cache grows

A cache only ever gains wrappers: what was found under a key or in a slot is found there
for good. In a cache that is well formed, the keys and the slots are matched one to one and
each wrapper carries the number of its slot.
-/

namespace SymbolGraph

namespace IdentityCache

variable {κ ω : Type} [Ord κ]

/-! ## Growth -/

/-- The second cache has all that the first one has, under the same keys and in the same slots. -/
structure Grows (a b : IdentityCache κ ω) : Prop where
  lookup : ∀ {key w}, a.lookup key = some w → b.lookup key = some w
  slots : a.slots.toList <+: b.slots.toList

theorem Grows.refl (a : IdentityCache κ ω) : a.Grows a := ⟨id, List.prefix_rfl⟩

theorem Grows.trans {a b c : IdentityCache κ ω} (h₁ : a.Grows b) (h₂ : b.Grows c) : a.Grows c :=
  ⟨fun h => h₂.lookup (h₁.lookup h), h₁.slots.trans h₂.slots⟩

theorem get_eq_toList (cache : IdentityCache κ ω) (slot : Nat) :
    cache.get slot = cache.slots.toList[slot]? := by
  simp [IdentityCache.get]

theorem Grows.get {a b : IdentityCache κ ω} (h : a.Grows b) {slot : Nat} {w : ω}
    (hw : a.get slot = some w) : b.get slot = some w := by
  rw [get_eq_toList] at hw ⊢
  obtain ⟨rest, hrest⟩ := h.slots
  rw [← hrest, List.getElem?_append_left (List.getElem?_eq_some_iff.mp hw).1]
  exact hw

theorem Grows.size_le {a b : IdentityCache κ ω} (h : a.Grows b) : a.size ≤ b.size :=
  h.slots.length_le

theorem get_eq_some_lt {cache : IdentityCache κ ω} {slot : Nat} {w : ω}
    (h : cache.get slot = some w) : slot < cache.size :=
  (Array.getElem?_eq_some_iff.mp h).1

theorem get_isSome_iff (cache : IdentityCache κ ω) (slot : Nat) :
    (∃ w, cache.get slot = some w) ↔ slot < cache.size :=
  ⟨fun ⟨_, h⟩ => get_eq_some_lt h, fun h => ⟨_, Array.getElem?_eq_getElem h⟩⟩

/-! ## Creating wrappers -/

theorem getOrCreate_of_lookup {cache : IdentityCache κ ω} {key : κ} {w : ω}
    (h : cache.lookup key = some w) (factory : Nat → ω) :
    cache.getOrCreate key factory = (w, cache) := by
  simp [getOrCreate, h]

theorem getOrCreate_of_missing {cache : IdentityCache κ ω} {key : κ}
    (h : cache.lookup key = none) (factory : Nat → ω) :
    cache.getOrCreate key factory =
      (factory cache.size,
        { index := cache.index.insert key cache.size
          slots := cache.slots.push (factory cache.size) }) := by
  simp [getOrCreate, h, size]

variable [Std.TransOrd κ] [Std.LawfulEqOrd κ]

theorem getOrCreate_grows (cache : IdentityCache κ ω) (key : κ) (factory : Nat → ω) :
    cache.Grows (cache.getOrCreate key factory).2 := by
  cases h : cache.lookup key with
  | some w => rw [getOrCreate_of_lookup h]; exact .refl cache
  | none =>
    rw [getOrCreate_of_missing h]
    refine ⟨fun {other w} hw => ?_, by simp⟩
    have hne : key ≠ other := by
      rintro rfl
      rw [h] at hw
      cases hw
    -- Old keys keep their slots, and old slots their wrappers.
    obtain ⟨slot, hslot, hget⟩ := Option.bind_eq_some_iff.mp hw
    have hlt := (Array.getElem?_eq_some_iff.mp hget).1
    simp only [IdentityCache.lookup, Std.TreeMap.getElem?_insert, Std.compare_eq_iff_eq, hne,
      if_false, hslot, Option.bind_some]
    rw [Array.getElem?_push_lt hlt, ← Array.getElem?_eq_getElem hlt]
    exact hget

/-- Whether it was created now or before, the wrapper that is handed back is found under the key. -/
theorem lookup_getOrCreate (cache : IdentityCache κ ω) (key : κ) (factory : Nat → ω) :
    (cache.getOrCreate key factory).2.lookup key = some (cache.getOrCreate key factory).1 := by
  cases h : cache.lookup key with
  | some w => rw [getOrCreate_of_lookup h]; exact h
  | none =>
    rw [getOrCreate_of_missing h]
    simp [IdentityCache.lookup, size]

/-! ## Well-formed caches -/

/-- Keys and slots are matched one to one, and each wrapper carries the number of its slot. -/
structure WellFormed (number : ω → Nat) (cache : IdentityCache κ ω) : Prop where
  bounded : ∀ {key : κ} {slot : Nat}, cache.index[key]? = some slot → slot < cache.size
  injective : ∀ {key other : κ} {slot : Nat}, cache.index[key]? = some slot →
    cache.index[other]? = some slot → key = other
  surjective : ∀ {slot : Nat}, slot < cache.size → ∃ key : κ, cache.index[key]? = some slot
  numbered : ∀ {slot : Nat} {w : ω}, cache.get slot = some w → number w = slot

variable {number : ω → Nat}

omit [Std.LawfulEqOrd κ] in
theorem WellFormed.empty : WellFormed number ({} : IdentityCache κ ω) where
  bounded h := by simp at h
  injective h := by simp at h
  surjective h := by simp [size] at h
  numbered h := by simp [IdentityCache.get] at h

namespace WellFormed

variable {cache : IdentityCache κ ω}

omit [Std.TransOrd κ] [Std.LawfulEqOrd κ] in
/-- A key has a slot exactly if it has a wrapper, and the wrapper is the one in that slot. -/
theorem index_eq_some_iff (wf : cache.WellFormed number) {key : κ} {slot : Nat} :
    cache.index[key]? = some slot ↔ ∃ w, cache.lookup key = some w ∧ number w = slot := by
  constructor
  · intro h
    obtain ⟨w, hw⟩ := (cache.get_isSome_iff slot).mpr (wf.bounded h)
    exact ⟨w, Option.bind_eq_some_iff.mpr ⟨slot, h, hw⟩, wf.numbered hw⟩
  · rintro ⟨w, hw, rfl⟩
    obtain ⟨slot, hslot, hget⟩ := Option.bind_eq_some_iff.mp hw
    rw [wf.numbered hget]
    exact hslot

omit [Std.TransOrd κ] [Std.LawfulEqOrd κ] in
theorem get_of_lookup (wf : cache.WellFormed number) {key : κ} {w : ω}
    (h : cache.lookup key = some w) : cache.get (number w) = some w := by
  obtain ⟨slot, _, hget⟩ := Option.bind_eq_some_iff.mp h
  rw [wf.numbered hget]
  exact hget

omit [Std.TransOrd κ] [Std.LawfulEqOrd κ] in
/-- Wrappers of different keys have different numbers. -/
theorem lookup_injective (wf : cache.WellFormed number) {key other : κ} {w v : ω}
    (hw : cache.lookup key = some w) (hv : cache.lookup other = some v)
    (hnumber : number w = number v) : key = other :=
  wf.injective (wf.index_eq_some_iff.mpr ⟨w, hw, rfl⟩) (wf.index_eq_some_iff.mpr ⟨v, hv, hnumber.symm⟩)

omit [Std.TransOrd κ] [Std.LawfulEqOrd κ] in
/-- Every issued wrapper was created under a key. -/
theorem exists_lookup (wf : cache.WellFormed number) {slot : Nat} {w : ω}
    (h : cache.get slot = some w) : ∃ key, cache.lookup key = some w := by
  obtain ⟨key, hkey⟩ := wf.surjective (get_eq_some_lt h)
  exact ⟨key, Option.bind_eq_some_iff.mpr ⟨slot, hkey, h⟩⟩

omit [Std.TransOrd κ] [Std.LawfulEqOrd κ] in
/-- A key without a wrapper has no slot either. -/
theorem index_eq_none (wf : cache.WellFormed number) {key : κ} (h : cache.lookup key = none) :
    cache.index[key]? = none := by
  cases hslot : cache.index[key]? with
  | none => rfl
  | some slot =>
    obtain ⟨w, hw, _⟩ := wf.index_eq_some_iff.mp hslot
    rw [h] at hw
    cases hw

/-- Other keys are not affected by the creation of a wrapper. -/
theorem lookup_getOrCreate_of_ne (wf : cache.WellFormed number) {key other : κ}
    (factory : Nat → ω) (hne : other ≠ key) :
    (cache.getOrCreate key factory).2.lookup other = cache.lookup other := by
  cases h : cache.lookup key with
  | some w => rw [getOrCreate_of_lookup h]
  | none =>
    rw [getOrCreate_of_missing h]
    simp only [IdentityCache.lookup, Std.TreeMap.getElem?_insert, Std.compare_eq_iff_eq, hne.symm,
      if_false]
    cases hslot : cache.index[other]? with
    | none => rfl
    | some slot =>
      have hlt : slot < cache.slots.size := wf.bounded hslot
      simp only [Option.bind_some, Array.getElem?_push_lt hlt, Array.getElem?_eq_getElem hlt]

/-- Creating a wrapper keeps a cache well formed, provided the wrapper takes the number it is told. -/
theorem getOrCreate (wf : cache.WellFormed number) (key : κ) {factory : Nat → ω}
    (hfactory : number (factory cache.size) = cache.size) :
    (cache.getOrCreate key factory).2.WellFormed number := by
  cases h : cache.lookup key with
  | some w => rw [getOrCreate_of_lookup h]; exact wf
  | none =>
    rw [getOrCreate_of_missing h]
    have hkey := wf.index_eq_none h
    -- The new slot is the one past the end, so no key had it before.
    have hold : ∀ {other : κ} {slot : Nat}, cache.index[other]? = some slot →
        slot ≠ cache.size := by
      intro other slot hother
      exact Nat.ne_of_lt (wf.bounded hother)
    refine ⟨?_, ?_, ?_, ?_⟩
    · intro other slot hother
      simp only [Std.TreeMap.getElem?_insert] at hother
      split at hother
      · cases hother
        simp [size]
      · have := wf.bounded hother
        simp only [size, Array.size_push] at this ⊢
        omega
    · intro first second slot hfirst hsecond
      simp only [Std.TreeMap.getElem?_insert] at hfirst hsecond
      -- Two keys with one slot are both the new key, or both old ones.
      split at hfirst <;> split at hsecond
      · rename_i h₁ h₂
        exact (Std.compare_eq_iff_eq.mp h₁).symm.trans (Std.compare_eq_iff_eq.mp h₂)
      · cases hfirst
        exact absurd rfl (hold hsecond)
      · cases hsecond
        exact absurd rfl (hold hfirst)
      · exact wf.injective hfirst hsecond
    · intro slot hslot
      simp only [size, Array.size_push] at hslot
      rcases Nat.lt_succ_iff_lt_or_eq.mp hslot with hlt | rfl
      · obtain ⟨other, hother⟩ := wf.surjective hlt
        refine ⟨other, ?_⟩
        have hne : key ≠ other := by
          rintro rfl
          rw [hkey] at hother
          cases hother
        simp [Std.TreeMap.getElem?_insert, hne, hother]
      · exact ⟨key, by simp [size]⟩
    · intro slot w hw
      simp only [IdentityCache.get, Array.getElem?_push] at hw
      split at hw
      · cases hw
        rename_i heq
        exact hfactory.trans heq.symm
      · exact wf.numbered hw

end WellFormed

end IdentityCache

end SymbolGraph
