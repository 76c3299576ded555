import Mathlib.Data.Fintype.Card
import SymbolGraph.Identity.Sections
import SymbolGraph.Proofs.Identity.Growth

/-!
# Concurrent requests

In whatever order the sections of many requests come, the cache stays well formed, no key is given
two wrappers, and every request is served with the wrapper under its key. All this rests on the
second look at the key: a wrapper is created only where there is none.
-/

namespace SymbolGraph

/-- The wrapper made for a slot. -/
def Request.make {κ ω : Type} (r : Request κ ω) (slot : Nat) : ω := r.factory (UInt32.ofNat slot)

/-- How many sections a request still has at most. -/
def Progress.left {ω : Type} : Progress ω → Nat
  | waiting => 2
  | missed => 1
  | served _ => 0

namespace Contest

variable {κ ω : Type} [Ord κ] {n : Nat} {requests : Fin n → Request κ ω}
  {cache : IdentityCache κ ω} {number : ω → UInt32} {s : Contest κ ω n} {i j : Fin n}

/-! ## One section -/

theorem proceed_progress (progress : Progress ω) : (s.proceed i progress).progress i = progress :=
  Function.update_self ..

theorem proceed_progress_of_ne (hne : j ≠ i) (progress : Progress ω) :
    (s.proceed i progress).progress j = s.progress j :=
  Function.update_of_ne hne ..

theorem insert_of_lookup {w : ω} (h : s.cache.lookup (requests i).key = some w) :
    s.insert requests i = s.proceed i (.served w) := by
  rw [insert, h]

/-- As long as there are numbers left, a wrapper is created as without other requests. -/
theorem insert_of_missing (h : s.cache.lookup (requests i).key = none)
    (hroom : s.cache.size < UInt32.size) :
    s.insert requests i =
      { s.proceed i (.served ((requests i).make s.cache.size)) with
        cache := (s.cache.getOrCreate (requests i).key (requests i).make).2
        created := i :: s.created } := by
  have hnumber : (UInt32.ofNat s.cache.size).toNat = s.cache.size :=
    UInt32.toNat_ofNat_of_lt' hroom
  simp only [insert, h, IdentityCache.getOrCreate_of_missing h, hnumber, Request.make, proceed]

theorem turn_turn_of_lookup (hi : s.progress i = .waiting) {w : ω}
    (h : s.cache.lookup (requests i).key = some w) :
    (s.turn requests i).turn requests i = s.proceed i (.served w) := by
  have hprobe : s.turn requests i = s.proceed i (.served w) := by simp only [turn, hi, probe, h]
  rw [hprobe]
  simp only [turn, proceed_progress]

theorem turn_turn_of_missing (hi : s.progress i = .waiting)
    (h : s.cache.lookup (requests i).key = none) (hroom : s.cache.size < UInt32.size) :
    (s.turn requests i).turn requests i =
      { (s.proceed i .missed).proceed i (.served ((requests i).make s.cache.size)) with
        cache := (s.cache.getOrCreate (requests i).key (requests i).make).2
        created := i :: s.created } := by
  have hprobe : s.turn requests i = s.proceed i .missed := by simp only [turn, hi, probe, h]
  have hinsert : (s.proceed i .missed).turn requests i = (s.proceed i .missed).insert requests i := by
    simp only [turn, proceed_progress]
  rw [hprobe, hinsert]
  exact insert_of_missing (s := s.proceed i .missed) h hroom

/-- A request whose sections follow each other does what it would do if there were no others. -/
theorem turn_turn_alone (hi : s.progress i = .waiting) (hroom : s.cache.size < UInt32.size) :
    let alone := s.cache.getOrCreate (requests i).key (requests i).make
    let t := (s.turn requests i).turn requests i
    t.cache = alone.2 ∧ t.progress i = .served alone.1 := by
  cases h : s.cache.lookup (requests i).key with
  | some w =>
    rw [turn_turn_of_lookup hi h, IdentityCache.getOrCreate_of_lookup h]
    exact ⟨rfl, proceed_progress _⟩
  | none =>
    rw [turn_turn_of_missing hi h hroom, IdentityCache.getOrCreate_of_missing h]
    exact ⟨rfl, proceed_progress _⟩

/-! ## Between the sections -/

/-- What holds between the sections of requests that were made of a cache. -/
structure Fair (requests : Fin n → Request κ ω) (number : ω → UInt32) (cache : IdentityCache κ ω)
    (s : Contest κ ω n) : Prop where
  wellFormed : s.cache.WellFormed fun w => (number w).toNat
  served : ∀ {i w}, s.progress i = .served w → s.cache.lookup (requests i).key = some w
  creators : ∀ {i}, i ∈ s.created →
    (∃ w, s.progress i = .served w) ∧ cache.lookup (requests i).key = none
  distinct : (s.created.map fun i => (requests i).key).Nodup
  grows : cache.Grows s.cache
  size : s.cache.size = cache.size + s.created.length

namespace Fair

theorem start (h : cache.WellFormed fun w => (number w).toNat) :
    Fair requests number cache (start cache) where
  wellFormed := h
  served hw := by cases hw
  creators hi := by cases hi
  distinct := .nil
  grows := .refl cache
  size := rfl

/-- A request that found its wrapper or nothing leaves the cache as it is. -/
theorem proceed (h : Fair requests number cache s) (hi : ∀ w, s.progress i ≠ .served w)
    {progress : Progress ω}
    (hprogress : ∀ {w}, progress = .served w → s.cache.lookup (requests i).key = some w) :
    Fair requests number cache (s.proceed i progress) where
  wellFormed := h.wellFormed
  served {j w} hj := by
    by_cases hne : j = i
    · subst hne
      exact hprogress ((proceed_progress progress).symm.trans hj)
    · rw [proceed_progress_of_ne hne] at hj
      exact h.served hj
  creators {j} hj := by
    obtain ⟨⟨w, hw⟩, hmissing⟩ := h.creators hj
    have hne : j ≠ i := by
      rintro rfl
      exact hi w hw
    exact ⟨⟨w, (proceed_progress_of_ne hne progress).trans hw⟩, hmissing⟩
  distinct := h.distinct
  grows := h.grows
  size := h.size

/-- Every wrapper is created for another request, so the numbers do not run out. -/
theorem size_lt (h : Fair requests number cache s) (hroom : cache.size + n ≤ UInt32.size)
    (hi : ∀ w, s.progress i ≠ .served w) : s.cache.size < UInt32.size := by
  have hnew : i ∉ s.created := fun hmem => by
    obtain ⟨⟨w, hw⟩, _⟩ := h.creators hmem
    exact hi w hw
  have hnodup : (i :: s.created).Nodup := List.nodup_cons.mpr ⟨hnew, .of_map _ h.distinct⟩
  have hlength := hnodup.length_le_card
  rw [List.length_cons, Fintype.card_fin] at hlength
  rw [h.size]
  omega

variable [Std.TransOrd κ] [Std.LawfulEqOrd κ]

theorem insert (h : Fair requests number cache s)
    (hnumber : ∀ i id, number ((requests i).factory id) = id)
    (hroom : cache.size + n ≤ UInt32.size) (hi : ∀ w, s.progress i ≠ .served w) :
    Fair requests number cache (s.insert requests i) := by
  cases hlookup : s.cache.lookup (requests i).key with
  | some w =>
    rw [insert_of_lookup hlookup]
    refine h.proceed hi fun hw => ?_
    cases hw
    exact hlookup
  | none =>
    have hsize := h.size_lt hroom hi
    have hmake : (number ((requests i).make s.cache.size)).toNat = s.cache.size := by
      rw [Request.make, hnumber]
      exact UInt32.toNat_ofNat_of_lt' hsize
    have hgrows := s.cache.getOrCreate_grows (requests i).key (requests i).make
    rw [insert_of_missing hlookup hsize]
    refine ⟨h.wellFormed.getOrCreate _ hmake, ?_, ?_, ?_, h.grows.trans hgrows, ?_⟩
    · intro j w hj
      by_cases hne : j = i
      · subst hne
        cases (proceed_progress _).symm.trans hj
        have hcreated := s.cache.lookup_getOrCreate (requests j).key (requests j).make
        rwa [IdentityCache.getOrCreate_of_missing hlookup] at hcreated ⊢
      · exact hgrows.lookup (h.served ((proceed_progress_of_ne hne _).symm.trans hj))
    · intro j hj
      rcases List.mem_cons.mp hj with rfl | hj
      · refine ⟨⟨_, proceed_progress _⟩, Option.eq_none_iff_forall_not_mem.mpr fun w hw => ?_⟩
        rw [h.grows.lookup hw] at hlookup
        cases hlookup
      · obtain ⟨⟨w, hw⟩, hmissing⟩ := h.creators hj
        have hne : j ≠ i := by
          rintro rfl
          exact hi w hw
        exact ⟨⟨w, (proceed_progress_of_ne hne _).trans hw⟩, hmissing⟩
    -- The keys of earlier creators have wrappers, and this key had none.
    · refine List.nodup_cons.mpr ⟨fun hmem => ?_, h.distinct⟩
      obtain ⟨j, hj, hkey⟩ := List.mem_map.mp hmem
      obtain ⟨⟨w, hw⟩, _⟩ := h.creators hj
      have hearlier := h.served hw
      rw [show (requests j).key = (requests i).key from hkey, hlookup] at hearlier
      cases hearlier
    · rw [IdentityCache.getOrCreate_of_missing hlookup]
      change (s.cache.slots.push _).size = _
      rw [Array.size_push, List.length_cons, ← Nat.add_assoc]
      exact congrArg (· + 1) h.size

theorem turn (h : Fair requests number cache s)
    (hnumber : ∀ i id, number ((requests i).factory id) = id)
    (hroom : cache.size + n ≤ UInt32.size) (i : Fin n) :
    Fair requests number cache (s.turn requests i) := by
  rw [Contest.turn]
  cases hi : s.progress i with
  | waiting =>
    have hnot : ∀ w, s.progress i ≠ .served w := fun w hw => by cases hi.symm.trans hw
    change Fair requests number cache (s.probe requests i)
    rw [probe]
    split
    · refine h.proceed hnot fun hw => ?_
      cases hw
      assumption
    · exact h.proceed hnot fun hw => by cases hw
  | missed =>
    exact h.insert hnumber hroom fun w hw => by cases hi.symm.trans hw
  | served w => exact h

theorem run (h : Fair requests number cache s)
    (hnumber : ∀ i id, number ((requests i).factory id) = id)
    (hroom : cache.size + n ≤ UInt32.size) (schedule : List (Fin n)) :
    Fair requests number cache (s.run requests schedule) := by
  induction schedule generalizing s with
  | nil => exact h
  | cons i schedule ih => exact ih (h.turn hnumber hroom i)

end Fair

/-! ## Every request is served -/

theorem turn_progress_of_ne (hne : j ≠ i) : (s.turn requests i).progress j = s.progress j := by
  rw [turn]
  split
  · rw [probe]
    split <;> exact proceed_progress_of_ne hne _
  · rw [insert]
    split <;> exact Function.update_of_ne hne ..
  · rfl

theorem turn_left (requests : Fin n → Request κ ω) (s : Contest κ ω n) (i : Fin n) :
    ((s.turn requests i).progress i).left ≤ (s.progress i).left - 1 := by
  rw [turn]
  cases hi : s.progress i with
  | waiting =>
    change ((s.probe requests i).progress i).left ≤ 1
    rw [probe]
    split <;> rw [proceed_progress] <;> simp [Progress.left]
  | missed =>
    change ((s.insert requests i).progress i).left ≤ 0
    rw [insert]
    split
    · rw [proceed_progress]
      exact Nat.le_refl 0
    · change (Function.update s.progress i (.served _) i).left ≤ 0
      rw [Function.update_self]
      exact Nat.le_refl 0
  | served w => exact (congrArg Progress.left hi).le

theorem run_left (requests : Fin n → Request κ ω) (s : Contest κ ω n) (schedule : List (Fin n)) (i : Fin n) :
    ((s.run requests schedule).progress i).left ≤ (s.progress i).left - schedule.count i := by
  induction schedule generalizing s with
  | nil => exact Nat.le_refl _
  | cons j schedule ih =>
    have hrest := ih (s.turn requests j)
    change ((s.run requests (j :: schedule)).progress i).left ≤ _ at hrest
    by_cases hne : i = j
    · subst hne
      have hturn := turn_left requests s i
      rw [List.count_cons_self]
      omega
    · rw [turn_progress_of_ne hne] at hrest
      rwa [List.count_cons_of_ne (Ne.symm hne)]

theorem exists_served_of_left {progress : Progress ω} (h : progress.left = 0) :
    ∃ w, progress = .served w := by
  cases progress with
  | waiting => cases h
  | missed => cases h
  | served w => exact ⟨w, rfl⟩

variable [Std.TransOrd κ] [Std.LawfulEqOrd κ]

/-- After any sections of any requests the factory ran at most once for each key, and never for a key
that had a wrapper. Requests that were served got one slot if their keys are equal, and different slots
otherwise, and two sections serve a request. The slots are numbered from zero on, and the wrapper in
each carries its number. -/
theorem run_creates_once (requests : Fin n → Request κ ω)
    (hnumber : ∀ i id, number ((requests i).factory id) = id)
    (hcache : cache.WellFormed fun w => (number w).toNat)
    (hroom : cache.size + n ≤ UInt32.size) (schedule : List (Fin n)) :
    let s := (start cache).run requests schedule
    (s.created.map fun i => (requests i).key).Nodup ∧
    (∀ i ∈ s.created, cache.lookup (requests i).key = none) ∧
    (∀ i j w v, s.progress i = .served w → s.progress j = .served v →
      (number w = number v ↔ (requests i).key = (requests j).key) ∧
      ((requests i).key = (requests j).key → w = v)) ∧
    (∀ i w, s.progress i = .served w → s.cache.get (number w).toNat = some w) ∧
    (∀ i, 2 ≤ schedule.count i → ∃ w, s.progress i = .served w) ∧
    (∀ slot, slot < s.cache.size → ∃ w, s.cache.get slot = some w ∧ (number w).toNat = slot) := by
  intro s
  have h : Fair requests number cache s := (Fair.start hcache).run hnumber hroom schedule
  have hsame {i j w v} (hw : s.progress i = .served w) (hv : s.progress j = .served v)
      (hkey : (requests i).key = (requests j).key) : w = v := by
    have hfound := h.served hw
    rw [hkey, h.served hv] at hfound
    exact (Option.some.inj hfound).symm
  refine ⟨h.distinct, fun i hi => (h.creators hi).2, ?_, ?_, ?_, ?_⟩
  · intro i j w v hw hv
    refine ⟨⟨fun heq => ?_, fun hkey => congrArg number (hsame hw hv hkey)⟩, hsame hw hv⟩
    exact h.wellFormed.lookup_injective (h.served hw) (h.served hv) (congrArg UInt32.toNat heq)
  · exact fun i w hw => h.wellFormed.get_of_lookup (h.served hw)
  · intro i hi
    have hleft := run_left requests (start cache) schedule i
    refine exists_served_of_left (Nat.le_zero.mp (hleft.trans ?_))
    exact (Nat.sub_eq_zero_of_le hi).le
  · intro slot hslot
    obtain ⟨w, hw⟩ := (s.cache.get_isSome_iff slot).mpr hslot
    exact ⟨w, hw, h.wellFormed.numbered hw⟩

/-- Two requests for one key that both find nothing at first, and whose factories would make different
wrappers: the one that comes first to its second section makes the wrapper of both. -/
theorem run_creates_once_of_two :
    let requests : Fin 2 → Request Nat (UInt32 × Bool) := fun i =>
      { key := 42, factory := fun id => (id, i = 0) }
    let s := (start (IdentityCache.empty : IdentityCache Nat (UInt32 × Bool))).run requests [0, 1, 1, 0]
    s.created = [1] ∧ s.progress 0 = .served (0, false) ∧ s.progress 1 = .served (0, false) ∧
      (s.created.map fun i => (requests i).key).Nodup := by
  intro requests s
  have hnumber (i : Fin 2) (id : UInt32) : ((requests i).factory id).1 = id := rfl
  have h := run_creates_once requests hnumber .empty (by decide) [0, 1, 1, 0]
  exact ⟨rfl, rfl, rfl, h.1⟩

end Contest

end SymbolGraph
