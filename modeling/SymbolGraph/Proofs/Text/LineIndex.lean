import Mathlib.Data.List.Count
import SymbolGraph.Proofs.Text.ByteOrder
import SymbolGraph.Text.LineSearch

/-!
# Lines and their terminators

A line index is exact: the line of an offset is the number of line terminators that end at or before it,
and the column is what is left over. The index looks at one byte and the next one to see where a line ends;
a terminator is told from all bytes around it.
-/

namespace SymbolGraph

/-! ## Terminators -/

/-- A line terminator: where it begins, and where the line after it does. -/
inductive Terminator (bytes : List UInt8) : Nat → Nat → Prop
  /-- A line feed that no carriage return stands in front of. -/
  | lineFeed {i : Nat} : bytes[i]? = some 10 → (∀ j, i = j + 1 → bytes[j]? ≠ some 13) →
    Terminator bytes i (i + 1)
  | both {i : Nat} : bytes[i]? = some 13 → bytes[i + 1]? = some 10 → Terminator bytes i (i + 2)
  | carriageReturn {i : Nat} : bytes[i]? = some 13 → bytes[i + 1]? ≠ some 10 →
    Terminator bytes i (i + 1)

namespace LineIndex

variable {bytes : List UInt8} {starts : List Nat} {here start stop i offset : Nat}

/-- This byte is the last one of a line terminator. -/
def EndsLine (bytes : List UInt8) (i : Nat) : Prop :=
  bytes[i]? = some 10 ∨ bytes[i]? = some 13 ∧ bytes[i + 1]? ≠ some 10

theorem endsLine_cons_zero {byte : UInt8} :
    EndsLine (byte :: bytes) 0 ↔ byte = 10 ∨ byte = 13 ∧ bytes.head? ≠ some 10 := by
  simp [EndsLine, List.head?_eq_getElem?]

theorem endsLine_cons_succ {byte : UInt8} : EndsLine (byte :: bytes) (i + 1) ↔ EndsLine bytes i := by
  simp [EndsLine]

theorem EndsLine.lt_length (h : EndsLine bytes i) : i < bytes.length := by
  rcases h with h | ⟨h, _⟩ <;> exact (List.getElem?_eq_some_iff.mp h).1

/-- Lines start behind the bytes that end one. -/
theorem mem_startsAfter :
    stop ∈ startsAfter here bytes ↔ ∃ i, stop = here + i + 1 ∧ EndsLine bytes i := by
  induction bytes generalizing here with
  | nil => simp [startsAfter, EndsLine]
  | cons byte rest ih =>
    -- The bytes behind the first one have the numbers from 1 on.
    have hlater : stop ∈ startsAfter (here + 1) rest ↔
        ∃ i, stop = here + (i + 1) + 1 ∧ EndsLine (byte :: rest) (i + 1) := by
      simp only [ih, endsLine_cons_succ, Nat.add_assoc, Nat.add_comm 1]
    rw [startsAfter]
    constructor
    · intro hstop
      split at hstop
      · rename_i hends
        rcases List.mem_cons.mp hstop with rfl | hstop
        · exact ⟨0, rfl, endsLine_cons_zero.mpr hends⟩
        · obtain ⟨i, hi⟩ := hlater.mp hstop
          exact ⟨i + 1, hi⟩
      · obtain ⟨i, hi⟩ := hlater.mp hstop
        exact ⟨i + 1, hi⟩
    · rintro ⟨_ | i, rfl, hends⟩
      · rw [if_pos (endsLine_cons_zero.mp hends)]
        exact List.mem_cons_self
      · have hstop := hlater.mpr ⟨i, rfl, hends⟩
        split
        · exact List.mem_cons_of_mem _ hstop
        · exact hstop

theorem pairwise_startsAfter : (startsAfter here bytes).Pairwise (· < ·) := by
  induction bytes generalizing here with
  | nil => exact .nil
  | cons byte rest ih =>
    rw [startsAfter]
    split
    · refine .cons (fun stop hstop => ?_) ih
      obtain ⟨i, rfl, _⟩ := mem_startsAfter.mp hstop
      omega
    · exact ih

/-- Where the line terminator begins that this byte is the last one of. -/
def beginning (bytes : List UInt8) : Nat → Nat
  | 0 => 0
  | i + 1 => if bytes[i]? = some 13 ∧ bytes[i + 1]? = some 10 then i else i + 1

theorem terminator_iff :
    Terminator bytes start stop ↔ ∃ i, stop = i + 1 ∧ EndsLine bytes i ∧ start = beginning bytes i := by
  constructor
  · intro h
    cases h with
    | lineFeed hfeed halone =>
      refine ⟨start, rfl, .inl hfeed, ?_⟩
      cases start with
      | zero => rfl
      | succ j => exact (if_neg fun h => halone j rfl h.1).symm
    | both hreturn hfeed => exact ⟨start + 1, rfl, .inl hfeed, (if_pos ⟨hreturn, hfeed⟩).symm⟩
    | carriageReturn hreturn hnext =>
      refine ⟨start, rfl, .inr ⟨hreturn, hnext⟩, ?_⟩
      cases start with
      | zero => rfl
      | succ j =>
        refine (if_neg fun h => ?_).symm
        cases hreturn.symm.trans h.2
  · rintro ⟨i, rfl, hfeed | ⟨hreturn, hnext⟩, rfl⟩
    · cases i with
      | zero => exact .lineFeed hfeed nofun
      | succ j =>
        rw [beginning]
        split
        · rename_i hboth
          exact .both hboth.1 hfeed
        · rename_i hboth
          refine .lineFeed hfeed fun k hk hreturn => hboth ⟨?_, hfeed⟩
          cases hk
          exact hreturn
    · cases i with
      | zero => exact .carriageReturn hreturn hnext
      | succ j =>
        rw [beginning, if_neg]
        · exact .carriageReturn hreturn hnext
        · rintro ⟨_, hfeed⟩
          cases hreturn.symm.trans hfeed

/-- Between two bytes that end lines there is room for the second terminator. -/
theorem lt_beginning {j : Nat} (hi : EndsLine bytes i) (hij : i < j) : i < beginning bytes j := by
  cases j with
  | zero => exact hij
  | succ j =>
    rw [beginning]
    split
    · rename_i hboth
      -- A carriage return that a line feed follows ends no line.
      have hne : i ≠ j := by
        rintro rfl
        rcases hi with hfeed | ⟨_, hnext⟩
        · cases hboth.1.symm.trans hfeed
        · exact hnext hboth.2
      omega
    · exact hij

/-- The line terminators of some bytes, from left to right. -/
def terminators (bytes : List UInt8) : List (Nat × Nat) :=
  (startsAfter 0 bytes).map fun stop => (beginning bytes (stop - 1), stop)

theorem map_snd_terminators : (terminators bytes).map Prod.snd = startsAfter 0 bytes := by
  rw [terminators, List.map_map]
  exact List.map_id' _

theorem mem_terminators : (start, stop) ∈ terminators bytes ↔ Terminator bytes start stop := by
  rw [terminators, terminator_iff, List.mem_map]
  constructor
  · rintro ⟨_, hstop, heq⟩
    obtain ⟨i, rfl, hends⟩ := mem_startsAfter.mp hstop
    cases heq
    refine ⟨i, by rw [Nat.zero_add], hends, ?_⟩
    rw [Nat.zero_add, Nat.add_sub_cancel]
  · rintro ⟨i, rfl, hends, rfl⟩
    exact ⟨i + 1, mem_startsAfter.mpr ⟨i, by rw [Nat.zero_add], hends⟩, rfl⟩

/-- Terminators do not overlap. -/
theorem pairwise_terminators : (terminators bytes).Pairwise fun a b => a.2 ≤ b.1 := by
  refine List.pairwise_map.mpr (pairwise_startsAfter.imp_of_mem fun ha hb hab => ?_)
  obtain ⟨i, rfl, hi⟩ := mem_startsAfter.mp ha
  obtain ⟨j, rfl, _⟩ := mem_startsAfter.mp hb
  have hij := lt_beginning hi (show i < j by omega)
  dsimp only
  rw [Nat.zero_add, Nat.zero_add, Nat.add_sub_cancel]
  omega

/-! ## The line of an offset -/

/-- Nothing in an ascending list is below its first number. -/
theorem countP_cons_of_lt {first : Nat} (hstarts : (first :: starts).Pairwise (· < ·))
    (hlt : offset < first) : (first :: starts).countP (· ≤ offset) = 0 := by
  refine List.countP_eq_zero.mpr (List.forall_mem_cons.mpr ⟨by simpa using hlt, fun next hnext => ?_⟩)
  have hnext := (List.pairwise_cons.mp hstarts).1 next hnext
  simpa using hlt.trans hnext

section Ascending

variable (hstarts : starts.Pairwise (· < ·))
include hstarts

/-- In an ascending list, the numbers up to an offset come first. -/
theorem takeWhile_eq_take :
    starts.takeWhile (· ≤ offset) = starts.take (starts.countP (· ≤ offset)) := by
  induction starts with
  | nil => rfl
  | cons first rest ih =>
    rcases Nat.lt_or_ge offset first with hlt | hle
    · rw [List.takeWhile_cons_of_neg (by simpa using hlt), countP_cons_of_lt hstarts hlt, List.take_zero]
    · rw [List.takeWhile_cons_of_pos (by simpa using hle), List.countP_cons_of_pos (by simpa using hle),
        List.take_succ_cons, ih hstarts.of_cons]

theorem le_iff_lt_countP (hstart : starts[i]? = some start) :
    start ≤ offset ↔ i < starts.countP (· ≤ offset) := by
  induction starts generalizing i with
  | nil => cases hstart
  | cons first rest ih =>
    rcases Nat.lt_or_ge offset first with hlt | hle
    · rw [countP_cons_of_lt hstarts hlt]
      refine iff_of_false (fun hle => ?_) (Nat.not_lt_zero i)
      have hnone := List.countP_eq_zero.mp (countP_cons_of_lt hstarts hlt) start
        (List.mem_of_getElem? hstart)
      exact hnone (by simpa using hle)
    · rw [List.countP_cons_of_pos (by simpa using hle)]
      cases i with
      | zero =>
        cases hstart
        exact iff_of_true hle (Nat.succ_pos _)
      | succ i => exact (ih hstarts.of_cons hstart).trans Nat.succ_lt_succ_iff.symm

end Ascending

/-- How many line terminators end at or before an offset. -/
def linesBefore (bytes : List UInt8) (offset : Nat) : Nat :=
  (startsAfter 0 bytes).countP (· ≤ offset)

theorem pairwise_starts : (ofBytes bytes).starts.Pairwise (· < ·) := by
  refine .cons (fun stop hstop => ?_) pairwise_startsAfter
  obtain ⟨i, rfl, _⟩ := mem_startsAfter.mp hstop
  exact Nat.succ_pos _

theorem countP_starts :
    (ofBytes bytes).starts.countP (· ≤ offset) = linesBefore bytes offset + 1 :=
  List.countP_cons_of_pos (by simp)

theorem linesBefore_lt_lineCount : linesBefore bytes offset < (ofBytes bytes).lineCount :=
  Nat.lt_succ_of_le List.countP_le_length

theorem length_startsAfter_le : (startsAfter here bytes).length ≤ bytes.length := by
  induction bytes generalizing here with
  | nil => exact Nat.le_refl _
  | cons byte rest ih =>
    rw [startsAfter]
    split
    · exact Nat.succ_le_succ ih
    · exact Nat.le_succ_of_le ih

theorem linesBefore_le_length : linesBefore bytes offset ≤ bytes.length :=
  List.countP_le_length.trans length_startsAfter_le

theorem lineCol_eq_none_iff : (ofBytes bytes).lineCol offset = none ↔ bytes.length < offset := by
  rw [lineCol]
  constructor
  · intro h
    split at h
    · assumption
    · cases h
  · exact fun h => if_pos h

/-- The line of an offset starts behind the last line terminator that ends at or before it. -/
theorem lineCol_eq_some (hoffset : offset ≤ bytes.length) :
    ∃ start, (ofBytes bytes).starts[linesBefore bytes offset]? = some start ∧ start ≤ offset ∧
      (ofBytes bytes).lineCol offset = some ⟨linesBefore bytes offset, offset - start⟩ := by
  have hlt : linesBefore bytes offset < (ofBytes bytes).starts.length := linesBefore_lt_lineCount
  have hstart := List.getElem?_eq_getElem hlt
  have hle : _ ≤ offset := (le_iff_lt_countP pairwise_starts hstart).mpr (by
    rw [countP_starts]
    exact Nat.lt_succ_self _)
  refine ⟨_, hstart, hle, ?_⟩
  have hinside : ¬ (ofBytes bytes).length < offset := Nat.not_lt.mpr hoffset
  have hreached : (ofBytes bytes).starts.takeWhile (· ≤ offset) = _ := takeWhile_eq_take pairwise_starts
  rw [countP_starts] at hreached
  rw [lineCol, if_neg hinside]
  dsimp only
  rw [hreached, List.getLast?_take, if_neg (Nat.succ_ne_zero _), Nat.add_sub_cancel, hstart,
    List.length_take_of_le hlt]
  rfl

theorem linesBefore_eq :
    linesBefore bytes offset = (terminators bytes).countP fun b => decide (b.2 ≤ offset) := by
  rw [linesBefore, ← map_snd_terminators, List.countP_map]
  rfl

/-- The line counts the terminators, and the column what is behind the last one of them. -/
theorem of_lineCol_eq_some {place : LineCol} (h : (ofBytes bytes).lineCol offset = some place) :
    offset ≤ bytes.length ∧ place.line = linesBefore bytes offset ∧
      ∃ start, (ofBytes bytes).starts[place.line]? = some start ∧ offset = start + place.col := by
  have hoffset : offset ≤ bytes.length := by
    refine Nat.not_lt.mp fun hlt => ?_
    cases h.symm.trans (lineCol_eq_none_iff.mpr hlt)
  obtain ⟨start, hstart, hle, hplace⟩ := lineCol_eq_some hoffset
  cases h.symm.trans hplace
  exact ⟨hoffset, rfl, start, hstart, (Nat.add_sub_of_le hle).symm⟩

end LineIndex

/-- The first place is on an earlier line, or further to the left on the same one. -/
def LineCol.Before (p q : LineCol) : Prop := p.line < q.line ∨ p.line = q.line ∧ p.col < q.col

theorem LineCol.Before.ne {p q : LineCol} (h : p.Before q) : p ≠ q := by
  rintro rfl
  rcases h with h | ⟨_, h⟩ <;> exact Nat.lt_irrefl _ h

/-- Places are in the order of their offsets. -/
theorem LineIndex.lineCol_before {bytes : List UInt8} {offset later : Nat} {p q : LineCol} (hlt : offset < later)
    (hp : (ofBytes bytes).lineCol offset = some p) (hq : (ofBytes bytes).lineCol later = some q) :
    p.Before q := by
  obtain ⟨_, hpline, start, hstart, hpcol⟩ := of_lineCol_eq_some hp
  obtain ⟨_, hqline, start', hstart', hqcol⟩ := of_lineCol_eq_some hq
  have hle : p.line ≤ q.line := by
    rw [hpline, hqline]
    refine List.countP_mono_left fun stop _ hstop => ?_
    simp only [decide_eq_true_eq] at hstop ⊢
    omega
  rcases Nat.lt_or_eq_of_le hle with hline | hline
  · exact .inl hline
  · -- On one line the columns count from the same start.
    rw [hline] at hstart
    cases hstart.symm.trans hstart'
    exact .inr ⟨hline, by omega⟩

/-! ## Words -/

/-- The slot of a word in an ascending array. -/
def Slot.Fits (entries : Array UInt32) (wanted : UInt32) : Slot → Prop
  | taken i => entries[i]? = some wanted
  | free i => i ≤ entries.size ∧ (∀ (j : Nat) entry, j < i → entries[j]? = some entry → entry < wanted) ∧
    ∀ (j : Nat) entry, i ≤ j → entries[j]? = some entry → wanted < entry

/-- In an ascending array, halving never looks at an entry that does not exist, and finds the slot. -/
theorem seek_fits {entries : Array UInt32} {wanted : UInt32}
    (hentries : ∀ (i j : Nat) a b, i < j → entries[i]? = some a → entries[j]? = some b → a < b)
    {low high : Nat} (hle : low ≤ high) (hhigh : high ≤ entries.size)
    (hbelow : ∀ (j : Nat) entry, j < low → entries[j]? = some entry → entry < wanted)
    (habove : ∀ (j : Nat) entry, high ≤ j → entries[j]? = some entry → wanted < entry) :
    ∃ slot, seek entries wanted low high = some slot ∧ slot.Fits entries wanted := by
  -- All entries in front of `low` stay below the word, and all from `high` on above it.
  fun_induction seek entries wanted low high with
  | case1 low high hlt middle hmissing =>
    have hsize := Array.getElem?_eq_none_iff.mp hmissing
    omega
  | case2 low high hlt middle hentry => exact ⟨.taken middle, rfl, hentry⟩
  | case3 low high hlt middle entry hentry hne hless ih =>
    refine ih (by omega) hhigh (fun j other hj hother => ?_) habove
    rcases Nat.lt_or_eq_of_le (Nat.le_of_lt_succ hj) with hj | rfl
    · exact UInt32.lt_trans (hentries j middle other entry hj hother hentry) hless
    · cases hentry.symm.trans hother
      exact hless
  | case4 low high hlt middle entry hentry hne hless ih =>
    have hmore : wanted < entry :=
      UInt32.lt_of_le_of_ne (UInt32.not_lt.mp hless) (Ne.symm hne)
    refine ih (by omega) (by omega) hbelow (fun j other hj hother => ?_)
    rcases Nat.lt_or_eq_of_le hj with hj | rfl
    · exact UInt32.lt_trans hmore (hentries middle j entry other hj hentry hother)
    · cases hentry.symm.trans hother
      exact hmore
  | case5 low high hnot =>
    cases Nat.le_antisymm hle (Nat.not_lt.mp hnot)
    exact ⟨.free low, rfl, hhigh, hbelow, habove⟩

namespace WordIndex

variable {bytes : List UInt8} {i start line : Nat} {offset entry : UInt32}

theorem start_le_length (h : (LineIndex.ofBytes bytes).starts[i]? = some start) :
    start ≤ bytes.length := by
  rcases List.mem_cons.mp (List.mem_of_getElem? h) with rfl | hstop
  · exact Nat.zero_le _
  · obtain ⟨j, rfl, hends⟩ := LineIndex.mem_startsAfter.mp hstop
    have hlt := hends.lt_length
    omega

theorem lt_of_starts {j next : Nat} (hij : i < j)
    (hstart : (LineIndex.ofBytes bytes).starts[i]? = some start)
    (hnext : (LineIndex.ofBytes bytes).starts[j]? = some next) : start < next := by
  obtain ⟨hi, rfl⟩ := List.getElem?_eq_some_iff.mp hstart
  obtain ⟨hj, rfl⟩ := List.getElem?_eq_some_iff.mp hnext
  exact List.pairwise_iff_getElem.mp LineIndex.pairwise_starts i j hi hj hij

theorem eq_linesBefore {offset : Nat} (hstart : (LineIndex.ofBytes bytes).starts[line]? = some start)
    (hle : start ≤ offset)
    (hnext : ∀ next, (LineIndex.ofBytes bytes).starts[line + 1]? = some next → offset < next) :
    line = LineIndex.linesBefore bytes offset := by
  have hreached := (LineIndex.le_iff_lt_countP LineIndex.pairwise_starts hstart).mp hle
  rw [LineIndex.countP_starts] at hreached
  refine Nat.le_antisymm (Nat.le_of_lt_succ hreached) (Nat.not_lt.mp fun hlt => ?_)
  -- The next line starts at or before the offset as well.
  have hexists : line + 1 < (LineIndex.ofBytes bytes).starts.length :=
    Nat.lt_of_le_of_lt hlt LineIndex.linesBefore_lt_lineCount
  have hbeyond := hnext _ (List.getElem?_eq_getElem hexists)
  refine Nat.not_le.mpr hbeyond ?_
  rw [LineIndex.le_iff_lt_countP LineIndex.pairwise_starts (List.getElem?_eq_getElem hexists),
    LineIndex.countP_starts]
  exact Nat.succ_lt_succ hlt

section Short

variable (hshort : bytes.length < 2 ^ 32)
include hshort

/-- In a text that is short enough, no offset of a line loses a digit. -/
theorem starts_ofIndex :
    (ofIndex (LineIndex.ofBytes bytes)).starts[i]? = some entry ↔
      (LineIndex.ofBytes bytes).starts[i]? = some entry.toNat := by
  rw [ofIndex, List.getElem?_toArray, List.getElem?_map, Option.map_eq_some_iff]
  constructor
  · rintro ⟨start, hstart, rfl⟩
    have hle := start_le_length hstart
    rw [UInt32.toNat_ofNat_of_lt' (Nat.lt_of_le_of_lt hle hshort), hstart]
  · exact fun h => ⟨entry.toNat, h, UInt32.ofNat_toNat⟩

theorem map_starts_ofIndex :
    (ofIndex (LineIndex.ofBytes bytes)).starts.toList.map UInt32.toNat = (LineIndex.ofBytes bytes).starts := by
  rw [ofIndex, List.map_map]
  refine (List.map_congr_left fun start hstart => ?_).trans (List.map_id _)
  obtain ⟨i, hi⟩ := List.mem_iff_getElem?.mp hstart
  exact UInt32.toNat_ofNat_of_lt' (Nat.lt_of_le_of_lt (start_le_length hi) hshort)

theorem exists_entry (h : (LineIndex.ofBytes bytes).starts[i]? = some start) :
    ∃ entry : UInt32, entry.toNat = start ∧
      (ofIndex (LineIndex.ofBytes bytes)).starts[i]? = some entry := by
  have hentry := UInt32.toNat_ofNat_of_lt' (Nat.lt_of_le_of_lt (start_le_length h) hshort)
  exact ⟨UInt32.ofNat start, hentry, (starts_ofIndex hshort).mpr (hentry.symm ▸ h)⟩

theorem starts_lt {j : Nat} {a b : UInt32} (hij : i < j)
    (ha : (ofIndex (LineIndex.ofBytes bytes)).starts[i]? = some a)
    (hb : (ofIndex (LineIndex.ofBytes bytes)).starts[j]? = some b) : a < b :=
  UInt32.lt_iff_toNat_lt.mpr
    (lt_of_starts hij ((starts_ofIndex hshort).mp ha) ((starts_ofIndex hshort).mp hb))

theorem floor_eq {slot : Slot} (h : slot.Fits (ofIndex (LineIndex.ofBytes bytes)).starts offset) :
    slot.floor = LineIndex.linesBefore bytes offset.toNat := by
  cases slot with
  | taken i =>
    have hstart := (starts_ofIndex hshort).mp h
    exact eq_linesBefore hstart (Nat.le_refl _) fun next hnext => lt_of_starts (Nat.lt_succ_self i) hstart hnext
  | free i =>
    obtain ⟨hsize, hbelow, habove⟩ := h
    cases i with
    | zero =>
      -- The first line starts at zero, and nothing is below that.
      obtain ⟨entry, hzero, hentry⟩ := exists_entry hshort (i := 0) rfl
      have hlt := UInt32.lt_iff_toNat_lt.mp (habove 0 entry (Nat.le_refl 0) hentry)
      rw [hzero] at hlt
      exact absurd hlt (Nat.not_lt_zero _)
    | succ line =>
      have hentry := Array.getElem?_eq_getElem (Nat.lt_of_succ_le hsize)
      have hlt := hbelow line _ (Nat.lt_succ_self line) hentry
      refine eq_linesBefore ((starts_ofIndex hshort).mp hentry)
        (Nat.le_of_lt (UInt32.lt_iff_toNat_lt.mp hlt)) fun next hnext => ?_
      obtain ⟨entry, rfl, hentry⟩ := exists_entry hshort hnext
      exact UInt32.lt_iff_toNat_lt.mp (habove (line + 1) entry (Nat.le_refl _) hentry)

/-- No look at an entry and no difference fails, and the place is that of the index. -/
theorem lineCol?_eq (offset : UInt32) : (ofIndex (LineIndex.ofBytes bytes)).lineCol? offset =
    some ((LineIndex.ofBytes bytes).lineCol offset.toNat) := by
  have hlength : (ofIndex (LineIndex.ofBytes bytes)).length.toNat = bytes.length :=
    UInt32.toNat_ofNat_of_lt' hshort
  rw [lineCol?]
  rcases Nat.lt_or_ge bytes.length offset.toNat with hlt | hle
  · rw [if_pos (UInt32.lt_iff_toNat_lt.mpr (hlength ▸ hlt)), LineIndex.lineCol_eq_none_iff.mpr hlt]
  · rw [if_neg fun hlt => Nat.not_lt.mpr hle (hlength ▸ UInt32.lt_iff_toNat_lt.mp hlt)]
    obtain ⟨slot, hseek, hfits⟩ : ∃ slot,
        seek (ofIndex (LineIndex.ofBytes bytes)).starts offset 0
          (ofIndex (LineIndex.ofBytes bytes)).starts.size = some slot ∧ slot.Fits _ offset :=
      seek_fits (fun _ _ _ _ hij => starts_lt hshort hij) (Nat.zero_le _) (Nat.le_refl _)
      (fun _ _ hj => absurd hj (Nat.not_lt_zero _)) fun _ _ hj hentry => by
        rw [Array.getElem?_eq_none hj] at hentry
        cases hentry
    obtain ⟨_, hstart, hstart_le, hplace⟩ := LineIndex.lineCol_eq_some hle
    obtain ⟨start, rfl, hentry⟩ := exists_entry hshort hstart
    have hcolumn : difference? offset start = some (offset - start) := if_pos (UInt32.le_iff_toNat_le.mpr hstart_le)
    have hline : LineIndex.linesBefore bytes offset.toNat < UInt32.size :=
      Nat.lt_of_le_of_lt LineIndex.linesBefore_le_length hshort
    rw [hseek, hplace]
    simp only [Option.bind_eq_bind, Option.bind_some, floor_eq hshort hfits, hentry, hcolumn,
      UInt32.toNat_ofNat_of_lt' hline, UInt32.toNat_sub_of_le _ _ (UInt32.le_iff_toNat_le.mpr hstart_le)]
    rfl

end Short

end WordIndex

/-! ## Texts -/

theorem toList_byteArray (bytes : ByteArray) : bytes.toList = bytes.data.toList := by
  have hloop (i : Nat) (read : List UInt8) :
      ByteArray.toList.loop bytes i read = read.reverse ++ bytes.data.toList.drop i := by
    fun_induction ByteArray.toList.loop bytes i read with
    | case1 i read hlt ih =>
      have hbyte : bytes.get! i = bytes.data.toList.get ⟨i, hlt⟩ := getElem!_pos bytes.data i hlt
      rw [ih, hbyte, List.reverse_cons, List.append_assoc, List.singleton_append]
      exact congrArg (read.reverse ++ ·) (List.drop_eq_getElem_cons hlt).symm
    | case2 i read hge =>
      rw [List.drop_of_length_le (Nat.not_lt.mp hge), List.append_nil]
  exact hloop 0 []

theorem LineIndex.ofText_eq (text : String) : ofText text = ofBytes (utf8 text) :=
  congrArg ofBytes (toList_byteArray text.toUTF8)

/-- A line index is exact. It has no place for the offsets past the end of the text. The line of any other one
is the number of the line terminators that end at or before it, and its column counts from where the last
of them ends. So places are in the order of their offsets; and halving finds them in words of 32 bits,
with no look behind the end of a list and no difference below zero. -/
theorem lineCol_exact (text : String) (hshort : (utf8 text).length < 2 ^ 32) :
    let index := LineIndex.ofText text
    ∃ breaks : List (Nat × Nat),
      (∀ start stop, (start, stop) ∈ breaks ↔ Terminator (utf8 text) start stop) ∧
      breaks.Pairwise (fun a b => a.2 ≤ b.1) ∧ index.lineCount = breaks.length + 1 ∧
      (∀ offset, index.lineCol offset = none ↔ (utf8 text).length < offset) ∧
      (∀ offset place, index.lineCol offset = some place →
        place.line = breaks.countP (fun b => b.2 ≤ offset) ∧ place.line < index.lineCount ∧
        ∃ start, (0 :: breaks.map Prod.snd)[place.line]? = some start ∧ offset = start + place.col) ∧
      (∀ offset later p q, offset < later → index.lineCol offset = some p →
        index.lineCol later = some q → p.Before q) ∧
      (∀ offset other place, index.lineCol offset = some place → index.lineCol other = some place →
        offset = other) ∧
      ∀ offset : UInt32,
        (WordIndex.ofIndex index).lineCol? offset = some (index.lineCol offset.toNat) := by
  intro index
  have hindex : index = LineIndex.ofBytes (utf8 text) := LineIndex.ofText_eq text
  rw [hindex]
  have hbefore {offset later : Nat} {p q : LineCol} (hlt : offset < later)
      (hp : (LineIndex.ofBytes (utf8 text)).lineCol offset = some p)
      (hq : (LineIndex.ofBytes (utf8 text)).lineCol later = some q) : p.Before q :=
    LineIndex.lineCol_before hlt hp hq
  refine ⟨LineIndex.terminators (utf8 text), fun _ _ => LineIndex.mem_terminators,
    LineIndex.pairwise_terminators, ?_, fun _ => LineIndex.lineCol_eq_none_iff, fun offset place hplace => ?_,
    fun _ _ _ _ hlt => hbefore hlt, fun offset other place hplace hother => ?_, WordIndex.lineCol?_eq hshort⟩
  · rw [← List.length_map Prod.snd, LineIndex.map_snd_terminators]
    rfl
  · obtain ⟨_, hline, hstart⟩ := LineIndex.of_lineCol_eq_some hplace
    rw [LineIndex.map_snd_terminators]
    refine ⟨hline.trans LineIndex.linesBefore_eq, ?_, hstart⟩
    rw [hline]
    exact LineIndex.linesBefore_lt_lineCount
  · rcases Nat.lt_trichotomy offset other with hlt | heq | hlt
    · exact absurd rfl (hbefore hlt hplace hother).ne
    · exact heq
    · exact absurd rfl (hbefore hlt hother hplace).ne

/-- A text with all kinds of line breaks. What stands between the two bytes of a line break is still on the
line before it. -/
theorem lineCol_exact_mixedBreaks :
    let index := LineIndex.ofText "a\r\nb\r\r\nc\n"
    (utf8 "a\r\nb\r\r\nc\n").length < 2 ^ 32 ∧
      ∃ breaks : List (Nat × Nat),
        (∀ start stop, (start, stop) ∈ breaks ↔ Terminator (utf8 "a\r\nb\r\r\nc\n") start stop) ∧
        breaks.length = 4 ∧ breaks.countP (fun b => b.2 ≤ 2) = 0 ∧
        (WordIndex.ofIndex index).lineCol? 6 = some (some ⟨2, 1⟩) := by
  intro index
  have hshort : (utf8 "a\r\nb\r\r\nc\n").length < 2 ^ 32 := by decide +kernel
  obtain ⟨breaks, hmem, _, hcount, _, hplace, _, _, hwords⟩ :=
    lineCol_exact "a\r\nb\r\r\nc\n" hshort
  have hlines : index.lineCount = 5 := by decide +kernel
  have hbetween : index.lineCol 2 = some ⟨0, 2⟩ := by decide +kernel
  have hsix : index.lineCol 6 = some ⟨2, 1⟩ := by decide +kernel
  refine ⟨hshort, breaks, hmem, ?_, (hplace 2 _ hbetween).1.symm, ?_⟩
  · exact Nat.succ_injective (hcount.symm.trans hlines)
  · exact (hwords 6).trans (congrArg some hsix)

end SymbolGraph
