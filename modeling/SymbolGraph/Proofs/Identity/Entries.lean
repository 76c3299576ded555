import Mathlib.Data.List.DropRight
import SymbolGraph.Identity.Command
import SymbolGraph.Proofs.Identity.Sections

/-!
# A cache as a list of entries

Seen from outside, a cache is the list of its wrappers with their keys, in the order in which they
were created. It takes two structures to keep that list, the index and the slots. Every command that
changes one of them changes the other in the same way, so the slot of a key is its place in the list.
-/

namespace SymbolGraph

namespace IdentityCache

variable {κ ω : Type}

/-! ## Commands to a cache -/

section

variable [Ord κ] {cache : IdentityCache κ ω} {r : Request κ ω}

theorem after_concat (past : List (Command κ ω)) (command : Command κ ω) :
    after (past ++ [command]) = ((after past).perform command).2 := by
  rw [after, List.foldl_concat]
  rfl

theorem getOrCreate_fst_of_missing (h : cache.lookup r.key = none) :
    (cache.getOrCreate r.key r.make).1 = r.make cache.size := by
  rw [getOrCreate_of_missing h]

/-- With both its sections taken at once, a request gets what `getOrCreate` gives. Its factory runs if
nothing is found. -/
theorem perform_request (hroom : cache.lookup r.key = none → cache.size < UInt32.size) :
    let alone := cache.getOrCreate r.key r.make
    cache.perform (.request r) =
      (.request (.served alone.1) (if (cache.lookup r.key).isSome then 0 else 1), alone.2) := by
  cases h : cache.lookup r.key with
  | some w =>
    have hserve : cache.serve r = (Contest.start cache).proceed 0 (.served w) :=
      Contest.turn_turn_of_lookup rfl h
    simp only [perform, hserve, Contest.proceed_progress, getOrCreate_of_lookup h]
    rfl
  | none =>
    have hserve : cache.serve r = _ :=
      @Contest.turn_turn_of_missing _ _ _ 1 (fun _ => r) (Contest.start cache) 0 rfl h (hroom h)
    simp only [perform, hserve, Contest.proceed_progress, getOrCreate_fst_of_missing h]
    rfl

end

/-! ## Keys that are held -/

def Command.key? : Command κ ω → Option κ
  | request r => some r.key
  | _ => none

def Command.isClear : Command κ ω → Bool
  | clear => true
  | _ => false

/-- The keys of the requests since the last clear. -/
def asked (past : List (Command κ ω)) : List κ :=
  (past.rtakeWhile fun command => !command.isClear).filterMap Command.key?

theorem asked_clear (past : List (Command κ ω)) : asked (past ++ [.clear]) = [] := by
  rw [asked, List.rtakeWhile_concat_neg _ _ _ (by simp [Command.isClear]), List.filterMap_nil]

theorem asked_concat (past : List (Command κ ω)) {command : Command κ ω}
    (h : command.isClear = false) : asked (past ++ [command]) = asked past ++ command.key?.toList := by
  rw [asked, List.rtakeWhile_concat_pos _ _ _ (by simp [h]), List.filterMap_append]
  cases hkey : command.key? <;> simp [hkey, asked]

variable [DecidableEq κ]

/-- The keys that were asked for since the last clear, each once, in the order in which they first
came. -/
def held (past : List (Command κ ω)) : List κ := (asked past).eraseDups

theorem held_clear (past : List (Command κ ω)) : held (past ++ [.clear]) = [] := by
  rw [held, asked_clear, List.eraseDups_nil]

theorem held_request (past : List (Command κ ω)) (r : Request κ ω) :
    held (past ++ [.request r]) = if r.key ∈ held past then held past else held past ++ [r.key] := by
  have hkey : (Command.request r).key?.toList = [r.key] := rfl
  rw [held, asked_concat past rfl, hkey, List.eraseDups_append]
  simp only [held, List.mem_eraseDups, List.removeAll, List.filter_singleton, List.elem_eq_mem]
  by_cases h : r.key ∈ asked past
  · simp [h]
  · simp only [h, decide_false, Bool.not_false, if_false]
    rfl

theorem held_of_key?_eq_none (past : List (Command κ ω)) {command : Command κ ω}
    (hkey : command.key? = none) (hclear : command.isClear = false) :
    held (past ++ [command]) = held past := by
  rw [held, asked_concat past hclear, hkey, Option.toList_none, List.append_nil, held]

theorem length_held_le (past : List (Command κ ω)) : (held past).length ≤ past.length := by
  induction past using List.reverseRecOn with
  | nil => exact Nat.le_refl 0
  | append_singleton past command ih =>
    rw [List.length_append, List.length_singleton]
    cases command with
    | request r =>
      rw [held_request]
      split
      · omega
      · rw [List.length_append, List.length_singleton]
        omega
    | clear => rw [held_clear]; exact Nat.zero_le _
    | _ => rw [held_of_key?_eq_none past rfl rfl]; omega

/-- Whichever of the commands came last, no more keys were held than there are numbers for slots. -/
def Fits (commands : List (Command κ ω)) : Prop :=
  ∀ past, past <+: commands → (held past).length ≤ UInt32.size

theorem Fits.of_concat {past : List (Command κ ω)} {command : Command κ ω}
    (h : Fits (past ++ [command])) : Fits past :=
  fun earlier hearlier => h earlier (hearlier.trans (List.prefix_append ..))

theorem fits_of_length_le {commands : List (Command κ ω)} (h : commands.length ≤ UInt32.size) :
    Fits commands :=
  fun past hpast => (length_held_le past).trans (hpast.length_le.trans h)

/-! ## The list -/

/-- Wrappers with their keys, in the order in which they were created. -/
abbrev Entries (κ ω : Type) := List (κ × ω)

namespace Entries

def keys (entries : Entries κ ω) : List κ := entries.map Prod.fst

def wrappers (entries : Entries κ ω) : List ω := entries.map Prod.snd

/-- The reply to a command, and the entries that it leaves. The factory runs only for a key that has
no entry, and is told how many entries there are. -/
def perform (entries : Entries κ ω) : Command κ ω → Reply ω × Entries κ ω
  | .request r =>
    match entries.lookup r.key with
    | some found => (.request (.served found) 0, entries)
    | none =>
      let wrapper := r.factory (UInt32.ofNat entries.length)
      (.request (.served wrapper) 1, entries ++ [(r.key, wrapper)])
  | .lookup key => (.found (entries.lookup key), entries)
  | .get handle => (.found entries.wrappers[handle.toNat]?, entries)
  | .size => (.size entries.length, entries)
  | .clear => (.done, [])

/-- What commands make of an empty list. -/
def after (past : List (Command κ ω)) : Entries κ ω :=
  past.foldl (fun entries command => (entries.perform command).2) []

theorem after_concat (past : List (Command κ ω)) (command : Command κ ω) :
    after (past ++ [command]) = ((after past).perform command).2 := by
  rw [after, List.foldl_concat]
  rfl

theorem lookup_eq_none_iff (entries : Entries κ ω) (key : κ) :
    entries.lookup key = none ↔ key ∉ entries.keys := by
  rw [List.lookup_eq_none_iff]
  simp only [keys, List.mem_map, bne_iff_ne, not_exists, not_and]
  exact forall₂_congr fun entry _ => ne_comm

/-- What is found under a key is the wrapper at the place of the key. -/
theorem lookup_eq_bind (entries : Entries κ ω) (key : κ) :
    entries.lookup key = (entries.keys.idxOf? key).bind (entries.wrappers[·]?) := by
  induction entries with
  | nil => rfl
  | cons entry entries ih =>
    simp only [keys, wrappers] at ih ⊢
    rw [List.lookup_cons, ih, List.map_cons, List.idxOf?_cons]
    by_cases h : key = entry.1
    · simp [h]
    · simp [beq_false_of_ne h, Ne.symm h, Option.bind_map]

theorem perform_of_lookup {entries : Entries κ ω} {r : Request κ ω} {w : ω}
    (h : entries.lookup r.key = some w) :
    entries.perform (.request r) = (.request (.served w) 0, entries) := by
  simp only [perform, h]

theorem perform_of_missing {entries : Entries κ ω} {r : Request κ ω}
    (h : entries.lookup r.key = none) :
    entries.perform (.request r) =
      (.request (.served (r.make entries.length)) 1, entries ++ [(r.key, r.make entries.length)]) := by
  simp only [perform, h, Request.make]

/-- The list has the keys that were asked for since the last clear. -/
theorem keys_after (past : List (Command κ ω)) : (after past).keys = held past := by
  induction past using List.reverseRecOn with
  | nil => rfl
  | append_singleton past command ih =>
    rw [after_concat]
    cases command with
    | request r =>
      rw [held_request, ← ih]
      cases h : (after past).lookup r.key with
      | some w =>
        have hmem : r.key ∈ (after past).keys := by
          by_contra hnew
          rw [← lookup_eq_none_iff, h] at hnew
          cases hnew
        rw [perform_of_lookup h, if_pos hmem]
      | none =>
        rw [perform_of_missing h, if_neg ((lookup_eq_none_iff _ _).mp h)]
        simp [keys]
    | clear => rw [held_clear]; rfl
    | _ => rw [held_of_key?_eq_none past rfl rfl]; exact ih

theorem length_after (past : List (Command κ ω)) : (after past).length = (held past).length := by
  rw [← keys_after, keys, List.length_map]

theorem length_perform_le {past : List (Command κ ω)} {command : Command κ ω}
    (hroom : Fits (past ++ [command])) :
    ((after past).perform command).2.length ≤ UInt32.size := by
  rw [← after_concat, length_after]
  exact hroom _ List.prefix_rfl

end Entries

/-! ## The cache and the list -/

theorem idxOf?_concat {keys : List κ} {key : κ} (hnew : key ∉ keys) (other : κ) :
    (keys ++ [key]).idxOf? other = if key = other then some keys.length else keys.idxOf? other := by
  rw [List.idxOf?, List.findIdx?_append, List.findIdx?_singleton, ← List.idxOf?]
  by_cases h : key = other
  · subst h
    simp [List.idxOf?_eq_none_iff.mpr hnew]
  · simp [h]

variable [Ord κ]

/-- The slots hold the wrappers of the list, and the index knows the place of each key. -/
structure Mirrors (cache : IdentityCache κ ω) (entries : Entries κ ω) : Prop where
  slots : cache.slots.toList = entries.wrappers
  index : ∀ key, cache.index[key]? = entries.keys.idxOf? key

namespace Mirrors

variable {cache : IdentityCache κ ω} {entries : Entries κ ω}

theorem get (h : cache.Mirrors entries) (slot : Nat) : cache.get slot = entries.wrappers[slot]? := by
  rw [get_eq_toList, h.slots]

theorem lookup (h : cache.Mirrors entries) (key : κ) : cache.lookup key = entries.lookup key := by
  rw [entries.lookup_eq_bind, ← h.index, ← funext h.get]
  rfl

theorem size (h : cache.Mirrors entries) : cache.size = entries.length := by
  rw [IdentityCache.size, ← Array.length_toList, h.slots, Entries.wrappers, List.length_map]

variable [Std.TransOrd κ] [Std.LawfulEqOrd κ]

omit [Std.LawfulEqOrd κ] in
theorem empty : (empty : IdentityCache κ ω).Mirrors [] where
  slots := rfl
  index key := by simp [IdentityCache.empty, Entries.keys]

/-- A new wrapper comes behind the others in both, and its key gets the next slot. -/
theorem create (h : cache.Mirrors entries) {key : κ} (hkey : cache.lookup key = none)
    (factory : Nat → ω) :
    (cache.getOrCreate key factory).2.Mirrors (entries ++ [(key, factory cache.size)]) := by
  have hnew : key ∉ entries.keys := by rwa [h.lookup, entries.lookup_eq_none_iff] at hkey
  have hlength : entries.keys.length = cache.size := by rw [h.size, Entries.keys, List.length_map]
  have hkeys : Entries.keys (entries ++ [(key, factory cache.size)]) = entries.keys ++ [key] :=
    List.map_append
  rw [getOrCreate_of_missing hkey]
  refine ⟨by simp [h.slots, Entries.wrappers], fun other => ?_⟩
  rw [Std.TreeMap.getElem?_insert, h.index, hkeys, idxOf?_concat hnew, hlength]
  simp only [Std.compare_eq_iff_eq]

/-- One command: the replies are equal, and what is left on both sides is in step again. -/
theorem perform (h : cache.Mirrors entries) (command : Command κ ω)
    (hroom : (entries.perform command).2.length ≤ UInt32.size) :
    (cache.perform command).1 = (entries.perform command).1 ∧
      (cache.perform command).2.Mirrors (entries.perform command).2 := by
  cases command with
  | request r =>
    have hlookup := h.lookup r.key
    cases hkey : entries.lookup r.key with
    | some w =>
      rw [hkey] at hlookup
      rw [perform_request (by simp [hlookup]), Entries.perform_of_lookup hkey,
        getOrCreate_of_lookup hlookup, hlookup]
      exact ⟨rfl, h⟩
    | none =>
      rw [hkey] at hlookup
      rw [Entries.perform_of_missing hkey] at hroom ⊢
      -- There is room for the new entry, so the number of its slot is not cut off.
      have hlt : cache.size < UInt32.size := by
        rw [List.length_append, List.length_singleton, ← h.size] at hroom
        omega
      rw [perform_request fun _ => hlt, hlookup, getOrCreate_fst_of_missing hlookup, ← h.size]
      exact ⟨rfl, h.create hlookup r.make⟩
  | lookup key => exact ⟨congrArg Reply.found (h.lookup key), h⟩
  | get handle => exact ⟨congrArg Reply.found (h.get handle.toNat), h⟩
  | size => exact ⟨congrArg Reply.size h.size, h⟩
  | clear => exact ⟨rfl, .empty⟩

theorem after {past : List (Command κ ω)} (hroom : Fits past) :
    (after past).Mirrors (Entries.after past) := by
  induction past using List.reverseRecOn with
  | nil => exact .empty
  | append_singleton past command ih =>
    rw [after_concat, Entries.after_concat]
    exact ((ih hroom.of_concat).perform command (Entries.length_perform_le hroom)).2

theorem reply_eq {past : List (Command κ ω)} {command : Command κ ω}
    (hroom : Fits (past ++ [command])) :
    ((IdentityCache.after past).perform command).1 = ((Entries.after past).perform command).1 :=
  ((Mirrors.after hroom.of_concat).perform command (Entries.length_perform_le hroom)).1

end Mirrors

/-- Whatever was asked of a cache before, it replies to the next command as the list of its entries
does, and the factory runs when the list says so. The list has one entry for each key that was asked
for since the last clear, in the order in which the keys first came, and index and slots are in step
with it. -/
theorem perform_eq_entries [Std.TransOrd κ] [Std.LawfulEqOrd κ] (past : List (Command κ ω))
    (command : Command κ ω) (hroom : Fits (past ++ [command])) :
    ((after past).perform command).1 = ((Entries.after past).perform command).1 ∧
    (Entries.after past).keys = held past ∧
    (after past).Mirrors (Entries.after past) :=
  ⟨Mirrors.reply_eq hroom, Entries.keys_after past, Mirrors.after hroom.of_concat⟩

/-- A request for a wrapper that carries its number and a label. -/
def labelled (key label : String) : Request String (UInt32 × String) where
  key
  factory id := (id, label)

/-- Keys that come back after a clear in another order: the second request for one of them gets the
wrapper that was made since, at the place that the key has now. -/
theorem perform_eq_entries_reordered :
    let past : List (Command String (UInt32 × String)) :=
      [.request (labelled "a" "first"), .request (labelled "b" "second"), .clear,
        .request (labelled "b" "third"), .request (labelled "a" "fourth")]
    let command := Command.request (labelled "a" "fifth")
    Fits (past ++ [command]) ∧
      ((after past).perform command).1 = .request (.served (1, "fourth")) 0 ∧
      (Entries.after past).keys = ["b", "a"] ∧ (after past).Mirrors (Entries.after past) := by
  intro past command
  have hroom : Fits (past ++ [command]) := fits_of_length_le (by decide)
  obtain ⟨hreply, hkeys, hmirrors⟩ := perform_eq_entries past command hroom
  exact ⟨hroom, hreply.trans rfl, hkeys.trans rfl, hmirrors⟩

end IdentityCache

end SymbolGraph
