import SymbolGraph.Proofs.Identity.Entries

/-!
# Handles after a clear

A handle is the number of a slot, and a cache that was cleared counts its slots from zero again. So a
handle from before finds nothing until its number is given out once more. From then on it finds the
wrapper that has the number now, whatever key that wrapper was made for.
-/

namespace SymbolGraph

namespace IdentityCache

variable {κ ω : Type} [Ord κ]

/-! ## Wrappers that were handed out -/

/-- A request among the new commands was served with the wrapper. -/
def Issued (old new : List (Command κ ω)) (w : ω) : Prop :=
  ∃ past r made, past ++ [.request r] <+: new ∧
    ((after (old ++ past)).perform (.request r)).1 = .request (.served w) made

theorem not_issued_nil (old : List (Command κ ω)) (w : ω) : ¬ Issued old [] w := by
  rintro ⟨past, r, made, hprefix, -⟩
  simp at hprefix

theorem issued_concat (old new : List (Command κ ω)) (command : Command κ ω) (w : ω) :
    Issued old (new ++ [command]) w ↔ Issued old new w ∨
      ∃ r made, command = .request r ∧
        ((after (old ++ new)).perform (.request r)).1 = .request (.served w) made := by
  constructor
  · rintro ⟨past, r, made, hprefix, hreply⟩
    rcases List.prefix_concat_iff.mp hprefix with heq | hprefix
    · obtain ⟨rfl, hcommand⟩ := List.append_inj' heq rfl
      exact .inr ⟨r, made, (List.singleton_inj.mp hcommand).symm, hreply⟩
    · exact .inl ⟨past, r, made, hprefix, hreply⟩
  · rintro (⟨past, r, made, hprefix, hreply⟩ | ⟨r, made, rfl, hreply⟩)
    · exact ⟨past, r, made, hprefix.trans (List.prefix_append ..), hreply⟩
    · exact ⟨new, r, made, List.prefix_rfl, hreply⟩

/-- Nothing that came before a clear matters after it. -/
theorem after_clear (old new : List (Command κ ω)) : after (old ++ .clear :: new) = after new := by
  simp only [after, List.foldl_append, List.foldl_cons]
  rfl

theorem issued_clear (old new : List (Command κ ω)) (w : ω) :
    Issued (old ++ [.clear]) new w ↔ Issued [] new w := by
  simp only [Issued, List.append_assoc, List.singleton_append, after_clear, List.nil_append]

/-! ## Without another clear -/

variable [DecidableEq κ]

namespace Entries

omit [Ord κ]

theorem mem_wrappers_of_lookup {entries : Entries κ ω} {key : κ} {w : ω}
    (h : entries.lookup key = some w) : w ∈ entries.wrappers := by
  rw [lookup_eq_bind] at h
  obtain ⟨place, -, hplace⟩ := Option.bind_eq_some_iff.mp h
  exact List.mem_of_getElem? hplace

/-- A request is served, and the list has the wrapper afterwards and all that it had before. -/
theorem perform_request (entries : Entries κ ω) (r : Request κ ω) :
    ∃ w made, (entries.perform (.request r)).1 = .request (.served w) made ∧
      ∀ v, v ∈ (entries.perform (.request r)).2.wrappers ↔ v ∈ entries.wrappers ∨ v = w := by
  cases h : entries.lookup r.key with
  | some w =>
    rw [perform_of_lookup h]
    refine ⟨w, 0, rfl, fun v => ⟨.inl, ?_⟩⟩
    rintro (hv | rfl)
    · exact hv
    · exact mem_wrappers_of_lookup h
  | none =>
    rw [perform_of_missing h]
    exact ⟨_, 1, rfl, fun v => by simp [wrappers]⟩

/-- Each wrapper of the list has the number of its place. -/
theorem map_number_wrappers {number : ω → UInt32} (new : List (Command κ ω))
    (hnumber : ∀ r, .request r ∈ new → ∀ id, number (r.factory id) = id) :
    (after new).wrappers.map number = (List.range (after new).length).map UInt32.ofNat := by
  induction new using List.reverseRecOn with
  | nil => rfl
  | append_singleton new command ih =>
    have hnew := ih fun r hr => hnumber r (List.mem_append_left _ hr)
    rw [after_concat]
    cases command with
    | request r =>
      cases h : (after new).lookup r.key with
      | some w => rw [perform_of_lookup h]; exact hnew
      | none =>
        rw [perform_of_missing h]
        have hmake : number (r.make (after new).length) = UInt32.ofNat (after new).length :=
          hnumber r (by simp) _
        simp only [wrappers, List.map_append, List.length_append, List.length_singleton,
          List.range_succ] at hnew ⊢
        rw [hnew]
        simp [hmake]
    | clear => rfl
    | _ => exact hnew

theorem toNat_number {number : ω → UInt32} {new : List (Command κ ω)}
    (hnumber : ∀ r, .request r ∈ new → ∀ id, number (r.factory id) = id) (hroom : Fits new)
    {place : Nat} {w : ω} (hw : (after new).wrappers[place]? = some w) : (number w).toNat = place := by
  have hlt : place < (after new).length := by
    obtain ⟨hlt, -⟩ := List.getElem?_eq_some_iff.mp hw
    rwa [wrappers, List.length_map] at hlt
  have hsize : place < UInt32.size := by
    rw [length_after] at hlt
    exact hlt.trans_le (hroom new List.prefix_rfl)
  have hmap := congrArg (·[place]?) (map_number_wrappers new hnumber)
  simp only [List.getElem?_map, hw, List.getElem?_range hlt, Option.map_some, Option.some_inj] at hmap
  -- The number is the place in 32 bits, and the place fits into them.
  rw [hmap]
  exact UInt32.toNat_ofNat_of_lt' hsize

end Entries

variable [Std.TransOrd κ] [Std.LawfulEqOrd κ]

/-- As long as nothing is cleared, the list has exactly what was handed out. -/
theorem issued_iff_mem_wrappers {new : List (Command κ ω)} (hclear : .clear ∉ new)
    (hroom : Fits new) (w : ω) :
    Issued [] new w ↔ w ∈ (Entries.after new).wrappers := by
  induction new using List.reverseRecOn with
  | nil => exact iff_of_false (not_issued_nil [] w) List.not_mem_nil
  | append_singleton new command ih =>
    rw [List.mem_append, not_or] at hclear
    rw [issued_concat, ih hclear.1 hroom.of_concat, Entries.after_concat]
    cases command with
    | request r =>
      obtain ⟨v, made, hserved, hmem⟩ := (Entries.after new).perform_request r
      have hreply : ((after ([] ++ new)).perform (.request r)).1 = .request (.served v) made :=
        (Mirrors.reply_eq hroom).trans hserved
      rw [hmem]
      refine or_congr_right ⟨?_, ?_⟩
      · rintro ⟨r', made', hcommand, hw⟩
        cases hcommand
        cases hreply.symm.trans hw
        rfl
      · rintro rfl
        exact ⟨r, made, rfl, hreply⟩
    | clear => exact absurd List.mem_cons_self hclear.2
    | _ => simp only [reduceCtorEq, false_and, exists_false, or_false]; rfl

/-- After the last clear a handle finds nothing until a request is served with a wrapper of its
number, and then that wrapper: it is the one of the key that came at this place among the keys asked
for since, whatever the number was given out for before. -/
theorem get_after_clear {number : ω → UInt32} (old new : List (Command κ ω))
    (hnumber : ∀ r, .request r ∈ new → ∀ id, number (r.factory id) = id)
    (hclear : .clear ∉ new) (hroom : Fits new) (handle : UInt32) :
    let cache := after (old ++ .clear :: new)
    (∀ w, cache.get handle.toNat = some w ↔ number w = handle ∧ Issued (old ++ [.clear]) new w) ∧
    (cache.get handle.toNat = none ↔ (held new).length ≤ handle.toNat) ∧
    ∀ key w, cache.get handle.toNat = some w →
      (cache.lookup key = some w ↔ (held new).idxOf? key = some handle.toNat) := by
  intro cache
  have hmirrors : cache.Mirrors (Entries.after new) := by
    rw [show cache = after new from after_clear old new]
    exact .after hroom
  have hplace {place : Nat} {w : ω} (hw : (Entries.after new).wrappers[place]? = some w) :
      (number w).toNat = place := Entries.toNat_number hnumber hroom hw
  refine ⟨fun w => ?_, ?_, fun key w hw => ?_⟩
  -- What was handed out stands somewhere in the list, and its number says where.
  · rw [hmirrors.get, issued_clear, issued_iff_mem_wrappers hclear hroom]
    constructor
    · intro hw
      exact ⟨UInt32.toNat_inj.mp (hplace hw), List.mem_of_getElem? hw⟩
    · rintro ⟨rfl, hmem⟩
      obtain ⟨place, hw⟩ := List.mem_iff_getElem?.mp hmem
      rwa [hplace hw]
  · rw [hmirrors.get, List.getElem?_eq_none_iff, Entries.wrappers, List.length_map,
      Entries.length_after]
  · rw [hmirrors.get] at hw
    rw [hmirrors.lookup, Entries.lookup_eq_bind, Entries.keys_after]
    constructor
    · intro hlookup
      obtain ⟨place, hkey, hw'⟩ := Option.bind_eq_some_iff.mp hlookup
      rw [hkey, ← hplace hw, hplace hw']
    · intro hkey
      rw [hkey]
      exact hw

/-- The number that was given out for one key is given out once more for another key, whose wrapper
is what the handle then finds. -/
theorem get_after_clear_two_keys :
    let old : List (Command String (UInt32 × String)) :=
      [.request (labelled "a" "first"), .request (labelled "b" "second")]
    let new : List (Command String (UInt32 × String)) := [.request (labelled "b" "third")]
    let cache := after (old ++ .clear :: new)
    (∀ r, .request r ∈ new → ∀ id, (r.factory id).1 = id) ∧ .clear ∉ new ∧ Fits new ∧
      cache.get 0 = some (0, "third") ∧ cache.lookup "b" = some (0, "third") ∧
      cache.get 1 = none := by
  intro old new cache
  have hnumber : ∀ r, .request r ∈ new → ∀ id, (r.factory id).1 = id := by
    intro r hr id
    cases List.mem_singleton.mp hr
    rfl
  have hclear : .clear ∉ new := fun h => by cases List.mem_singleton.mp h
  have hroom : Fits new := fits_of_length_le (by decide)
  have hissued : Issued (old ++ [.clear]) new (0, "third") :=
    ⟨[], labelled "b" "third", 1, List.prefix_rfl, rfl⟩
  obtain ⟨hfound, -, hkey⟩ := get_after_clear old new hnumber hclear hroom 0
  obtain ⟨-, hstale, -⟩ := get_after_clear old new hnumber hclear hroom 1
  have hget := (hfound (0, "third")).mpr ⟨rfl, hissued⟩
  exact ⟨hnumber, hclear, hroom, hget, (hkey "b" _ hget).mpr rfl, hstale.mpr (Nat.le_refl 1)⟩

/-- The first handle that was issued before a clear finds the first wrapper that was created after it,
which was made for another key. -/
theorem get_finds_other_key :
    let issued : List (Command String (UInt32 × String)) := [.request (labelled "a" "first")]
    let created : List (Command String (UInt32 × String)) := [.request (labelled "b" "second")]
    let cache := after (issued ++ .clear :: created)
    Issued [] issued (0, "first") ∧ (after (issued ++ [.clear])).get 0 = none ∧
      cache.get 0 = some (0, "second") ∧ cache.lookup "b" = some (0, "second") ∧
      cache.lookup "a" = none :=
  ⟨⟨[], labelled "a" "first", 1, List.prefix_rfl, rfl⟩, rfl, rfl, rfl, rfl⟩

end IdentityCache

end SymbolGraph
