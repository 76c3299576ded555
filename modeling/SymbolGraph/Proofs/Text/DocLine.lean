import SymbolGraph.Processing.DocLines
import SymbolGraph.Proofs.Text.LineIndex

/-!
# The lines of a comment

A comment is written on one line by its characters, and a line index finds lines by bytes. Both see the same
lines: what is written are the lines between the line starts of the index, without their terminators,
and a backslash and an `n` between them. The line starts are kept in words of 32 bits, so this holds of
comments of fewer than 2 ^ 32 bytes, and not of all that are longer.
-/

namespace SymbolGraph

variable {line before rest : List UInt8} {here start : Nat} {c : Char} {cs : List Char}

/-! ## Lines by bytes -/

/-- The bytes from each line start to the next one, and from the last one on. -/
def segments (bytes : List UInt8) : List Nat → List (List UInt8)
  | [] => []
  | [start] => [bytes.drop start]
  | start :: next :: later => (bytes.take next).drop start :: segments bytes (next :: later)

theorem length_segments (starts : List Nat) : (segments bytes starts).length = starts.length := by
  induction starts with
  | nil => rfl
  | cons start later ih =>
    cases later with
    | nil => rfl
    | cons next later => exact congrArg Nat.succ ih

/-- A line without the terminator at its end. -/
def withoutTerminator (line : List UInt8) : List UInt8 :=
  if [13, 10] <:+ line then line.dropLast.dropLast
  else if [10] <:+ line ∨ [13] <:+ line then line.dropLast
  else line

theorem withoutTerminator_both : withoutTerminator (line ++ [13, 10]) = line := by
  rw [withoutTerminator, if_pos (List.suffix_append _ _), List.append_cons, List.dropLast_concat,
    List.dropLast_concat]

/-- A suffix ends in the last byte of the whole. -/
theorem getLast_of_suffix {mark : List UInt8} {byte : UInt8} (h : mark <:+ line ++ [byte])
    (hmark : mark ≠ []) : mark.getLast hmark = byte := by
  rw [h.getLast hmark, List.getLast_concat]

theorem withoutTerminator_return : withoutTerminator (line ++ [13]) = line := by
  have hboth : ¬ [13, 10] <:+ line ++ [13] :=
    fun h => absurd (getLast_of_suffix h (List.cons_ne_nil _ _)) (by decide)
  rw [withoutTerminator, if_neg hboth, if_pos (.inr (List.suffix_append _ _)), List.dropLast_concat]

theorem withoutTerminator_concat {byte : UInt8} (hfeed : 10 ≠ byte) (hreturn : 13 ≠ byte) :
    withoutTerminator (line ++ [byte]) = line ++ [byte] := by
  have hboth : ¬ [13, 10] <:+ line ++ [byte] :=
    fun h => hfeed (getLast_of_suffix h (List.cons_ne_nil _ _))
  rw [withoutTerminator, if_neg hboth, if_neg]
  rintro (h | h)
  · exact hfeed (getLast_of_suffix h (List.cons_ne_nil _ _))
  · exact hreturn (getLast_of_suffix h (List.cons_ne_nil _ _))

/-- No line terminator has a byte in these. -/
def BreakFree (line : List UInt8) : Prop := 10 ∉ line ∧ 13 ∉ line

namespace BreakFree

theorem nil : BreakFree [] := ⟨List.not_mem_nil, List.not_mem_nil⟩

theorem append (h : BreakFree line) (hrest : BreakFree rest) : BreakFree (line ++ rest) :=
  ⟨List.not_mem_append h.1 hrest.1, List.not_mem_append h.2 hrest.2⟩

theorem not_suffix_feed (h : BreakFree line) : ¬ [10] <:+ line :=
  fun hsuffix => h.1 (hsuffix.subset List.mem_cons_self)

theorem not_suffix_return (h : BreakFree line) : ¬ [13] <:+ line :=
  fun hsuffix => h.2 (hsuffix.subset List.mem_cons_self)

theorem not_suffix_both (h : BreakFree line) : ¬ [13, 10] <:+ line :=
  fun hsuffix => h.2 (hsuffix.subset List.mem_cons_self)

theorem withoutTerminator_self (h : BreakFree line) : withoutTerminator line = line := by
  rw [withoutTerminator, if_neg h.not_suffix_both, if_neg (not_or.mpr ⟨h.not_suffix_feed, h.not_suffix_return⟩)]

theorem withoutTerminator_feed (h : BreakFree line) : withoutTerminator (line ++ [10]) = line := by
  have hboth : ¬ [13, 10] <:+ line ++ [10] := by
    rintro ⟨front, hfront⟩
    rw [List.append_cons] at hfront
    exact h.not_suffix_return ⟨front, (List.append_inj' hfront rfl).1⟩
  rw [withoutTerminator, if_neg hboth, if_pos (.inl (List.suffix_append _ _)), List.dropLast_concat]

end BreakFree

namespace LineIndex

/-- No line ends in bytes that belong to no line terminator. -/
theorem startsAfter_append (h : BreakFree line) :
    startsAfter here (line ++ rest) = startsAfter (here + line.length) rest := by
  induction line generalizing here with
  | nil => rfl
  | cons byte line ih =>
    obtain ⟨hfeed, hreturn⟩ := h
    simp only [List.mem_cons, not_or] at hfeed hreturn
    rw [List.cons_append, startsAfter, if_neg, ih ⟨hfeed.2, hreturn.2⟩, List.length_cons, Nat.add_assoc, Nat.add_comm 1]
    rintro (hbyte | hbyte)
    · exact hfeed.1 hbyte.symm
    · exact hreturn.1 hbyte.1.symm

end LineIndex

/-! ## Lines by characters -/

/-- The bytes of some characters. -/
def encode (cs : List Char) : List UInt8 := cs.flatMap String.utf8EncodeChar

/-- The bytes up to `0x7f` stand for themselves. -/
theorem toNat_of_mem_utf8EncodeChar {byte : UInt8} (hbyte : byte.toNat ≤ 0x7f)
    (hmem : byte ∈ String.utf8EncodeChar c) : c.val.toNat = byte.toNat := by
  have hmem := List.mem_map_of_mem (f := UInt8.toNat) hmem
  rw [map_toNat_utf8EncodeChar] at hmem
  generalize c.val.toNat = v at *
  dsimp only at hmem
  split_ifs at hmem <;> simp only [List.mem_cons, List.not_mem_nil, or_false] at hmem <;> omega

theorem eq_feed_of_mem (hmem : 10 ∈ String.utf8EncodeChar c) : c = '\n' :=
  Char.ext (UInt32.toNat_inj.mp (toNat_of_mem_utf8EncodeChar (by decide) hmem))

theorem breakFree_utf8EncodeChar (hfeed : c ≠ '\n') (hreturn : c ≠ '\r') :
    BreakFree (String.utf8EncodeChar c) := by
  refine ⟨fun hmem => hfeed (eq_feed_of_mem hmem), fun hmem => hreturn ?_⟩
  exact Char.ext (UInt32.toNat_inj.mp (toNat_of_mem_utf8EncodeChar (by decide) hmem))

theorem feed_mem_toList {text : String} (hmem : 10 ∈ utf8 text) : '\n' ∈ text.toList := by
  rw [utf8_eq] at hmem
  obtain ⟨c, hc, hmem⟩ := List.mem_flatMap.mp hmem
  exact eq_feed_of_mem hmem ▸ hc

theorem utf8_ofList (cs : List Char) : utf8 (String.ofList cs) = encode cs := by
  rw [utf8_eq, String.toList_ofList, encode]

theorem head?_encode (hfeed : cs.head? ≠ some '\n') : (encode cs).head? ≠ some 10 := by
  cases cs with
  | nil => nofun
  | cons c cs =>
    intro hhead
    have hmem : 10 ∈ String.utf8EncodeChar c := by
      obtain ⟨byte, tail, hbytes⟩ := List.exists_cons_of_ne_nil (String.utf8EncodeChar_ne_nil (c := c))
      rw [encode, List.flatMap_cons, hbytes] at hhead
      cases hhead
      rw [hbytes]
      exact List.mem_cons_self
    exact hfeed (congrArg some (eq_feed_of_mem hmem))

namespace DocLine

/-- The lines of a text without the line breaks. -/
def lines : List Char → List (List Char)
  | [] => [[]]
  | '\r' :: '\n' :: rest => [] :: lines rest
  | '\r' :: rest => [] :: lines rest
  | '\n' :: rest => [] :: lines rest
  | c :: rest => (lines rest).modifyHead (c :: ·)

theorem exists_lines_eq_cons (cs : List Char) : ∃ first later, lines cs = first :: later := by
  fun_induction lines cs with
  | case5 c rest _ _ _ ih =>
    obtain ⟨first, later, hlines⟩ := ih
    rw [hlines]
    exact ⟨_, _, rfl⟩
  | _ => exact ⟨_, _, rfl⟩

/-- Between two lines stand a backslash and an `n`. -/
theorem escapeBreaks_eq : escapeBreaks cs = ['\\', 'n'].intercalate (lines cs) := by
  fun_induction lines cs with
  | case1 => rfl
  | case2 rest ih | case4 rest ih =>
    obtain ⟨first, later, hlines⟩ := exists_lines_eq_cons rest
    rw [escapeBreaks, ih, hlines]
    rfl
  | case3 rest hrest ih =>
    obtain ⟨first, later, hlines⟩ := exists_lines_eq_cons rest
    rw [escapeBreaks, ih, hlines]
    · rfl
    · exact hrest
  | case5 c rest hboth hreturn hfeed ih =>
    obtain ⟨first, later, hlines⟩ := exists_lines_eq_cons rest
    rw [escapeBreaks, ih, hlines]
    · cases later <;> rfl
    · exact hboth
    · exact hreturn
    · exact hfeed

theorem not_mem_escapeBreaks (hc : c = '\r' ∨ c = '\n') : c ∉ escapeBreaks cs := by
  have hescape : c ≠ '\\' ∧ c ≠ 'n' := by
    rcases hc with rfl | rfl <;> decide
  fun_induction escapeBreaks cs with
  | case1 => exact List.not_mem_nil
  | case2 rest ih | case3 rest _ ih | case4 rest ih =>
    exact List.not_mem_cons_of_ne_of_not_mem hescape.1 (List.not_mem_cons_of_ne_of_not_mem hescape.2 ih)
  | case5 d rest _ hreturn hfeed ih =>
    refine List.not_mem_cons_of_ne_of_not_mem ?_ ih
    rcases hc with rfl | rfl
    · exact fun h => hreturn h.symm
    · exact fun h => hfeed h.symm

/-- A terminator ends the line that is under way, and the next one starts with nothing in front of it. -/
theorem map_segments_terminated (mark : List UInt8) (hstart : start ≤ before.length)
    (hmark : withoutTerminator (before.drop start ++ mark) = before.drop start)
    (hstarts : LineIndex.startsAfter before.length (mark ++ encode cs) =
      (before ++ mark).length :: LineIndex.startsAfter (before ++ mark).length (encode cs))
    (hlater : (segments (before ++ mark ++ encode cs)
        ((before ++ mark).length :: LineIndex.startsAfter (before ++ mark).length (encode cs))).map
          withoutTerminator =
      ((lines cs).map encode).modifyHead ((before ++ mark).drop (before ++ mark).length ++ ·)) :
    (segments (before ++ (mark ++ encode cs))
        (start :: LineIndex.startsAfter before.length (mark ++ encode cs))).map withoutTerminator =
      (([] :: lines cs).map encode).modifyHead (before.drop start ++ ·) := by
  obtain ⟨first, later, hlines⟩ := exists_lines_eq_cons cs
  rw [List.drop_length, hlines] at hlater
  rw [hstarts, ← List.append_assoc, segments, List.take_left, List.drop_append_of_le_length hstart, List.map_cons,
    hmark, hlater, hlines]
  exact congrArg (· :: _) (List.append_nil _).symm

/-- The lines by bytes are the lines by characters. The first one goes on where the bytes before it left off. -/
theorem map_segments (before : List UInt8) (start : Nat) (cs : List Char) (hstart : start ≤ before.length)
    (hbefore : BreakFree (before.drop start)) :
    (segments (before ++ encode cs) (start :: LineIndex.startsAfter before.length (encode cs))).map
        withoutTerminator =
      ((lines cs).map encode).modifyHead (before.drop start ++ ·) := by
  -- The induction is on the characters. Those of the line under way are in the bytes before.
  have hnothing : ∀ bytes : List UInt8, BreakFree (bytes.drop bytes.length) := fun bytes => by
    rw [List.drop_length]
    exact .nil
  fun_induction lines cs generalizing before start with
  | case1 =>
    refine congrArg (fun line => [line]) ?_
    rw [encode, List.flatMap_nil, List.append_nil, hbefore.withoutTerminator_self]
    exact (List.append_nil _).symm
  | case2 rest ih =>
    refine map_segments_terminated [13, 10] hstart withoutTerminator_both ?_
      (ih _ _ (Nat.le_refl _) (hnothing _))
    rw [List.length_append]
    rfl
  | case3 rest hrest ih =>
    refine map_segments_terminated [13] hstart withoutTerminator_return ?_
      (ih _ _ (Nat.le_refl _) (hnothing _))
    have hhead : (encode rest).head? ≠ some 10 := head?_encode fun hfeed => by
      obtain ⟨later, rfl⟩ := List.head?_eq_some_iff.mp hfeed
      exact hrest later rfl
    rw [List.length_append, List.singleton_append, LineIndex.startsAfter]
    exact if_pos (.inr ⟨rfl, hhead⟩)
  | case4 rest ih =>
    refine map_segments_terminated [10] hstart hbefore.withoutTerminator_feed ?_
      (ih _ _ (Nat.le_refl _) (hnothing _))
    rw [List.length_append, List.singleton_append, LineIndex.startsAfter]
    exact if_pos (.inl rfl)
  | case5 c rest hboth hreturn hfeed ih =>
    have hc : BreakFree (String.utf8EncodeChar c) := breakFree_utf8EncodeChar hfeed hreturn
    have hunder : (before ++ String.utf8EncodeChar c).drop start = before.drop start ++ String.utf8EncodeChar c :=
      List.drop_append_of_le_length hstart
    have hrest := ih (before ++ String.utf8EncodeChar c) start
      (List.length_append ▸ Nat.le_add_right_of_le hstart) (hunder ▸ hbefore.append hc)
    rw [encode, List.flatMap_cons, ← encode, LineIndex.startsAfter_append hc, ← List.append_assoc, ← List.length_append,
      hrest, hunder]
    obtain ⟨first, later, hlines⟩ := exists_lines_eq_cons rest
    rw [hlines]
    exact congrArg (· :: _) (List.append_assoc _ _ _)

/-- The lines by characters are what stands between the line starts of the line index. -/
theorem map_utf8_lines (doc : String) :
    ((lines doc.toList).map String.ofList).map utf8 =
      (segments (utf8 doc) (LineIndex.ofText doc).starts).map withoutTerminator := by
  have hsegments := map_segments [] 0 doc.toList (Nat.le_refl 0) .nil
  obtain ⟨first, later, hlines⟩ := exists_lines_eq_cons doc.toList
  rw [hlines] at hsegments ⊢
  rw [LineIndex.ofText_eq, utf8_eq, List.map_map]
  exact (List.map_congr_left fun cs _ => utf8_ofList cs).trans hsegments.symm

theorem length_lines (doc : String) :
    (lines doc.toList).length = (LineIndex.ofText doc).starts.length := by
  have hlength := congrArg List.length (map_utf8_lines doc)
  rwa [List.length_map, List.length_map, List.length_map, length_segments] at hlength

theorem render_eq (name doc : String) : render name (some doc) =
    name ++ ": " ++ "\\n".intercalate ((lines doc.toList).map String.ofList) := by
  rw [render, escapeBreaks_eq]
  refine congrArg (name ++ ": " ++ ·) (String.toList_injective ?_)
  rw [String.toList_ofList, String.toList_intercalate, List.map_map]
  have hsame : (lines doc.toList).map (String.toList ∘ String.ofList) = lines doc.toList :=
    (List.map_congr_left fun _ _ => String.toList_ofList).trans (List.map_id _)
  rw [hsame]
  rfl

/-- No line break is left but those of the name. -/
theorem count_render (name doc : String) (hc : c = '\r' ∨ c = '\n') :
    (render name (some doc)).toList.count c = name.toList.count c := by
  rw [render, String.toList_append, String.toList_append, List.count_append, List.count_append,
    String.toList_ofList (l := escapeBreaks _), List.count_eq_zero_of_not_mem (not_mem_escapeBreaks hc)]
  rcases hc with rfl | rfl <;> rfl

/-- A comment is written as its lines. These are what stands between the line starts of its line index, without
the terminators, and a backslash and an `n` separate each from the next one. No line break is left
but those of the name. -/
theorem render_lines (name doc : String) (hshort : (utf8 doc).length < 2 ^ 32) :
    let starts := (WordIndex.ofIndex (LineIndex.ofText doc)).starts
    ∃ lines : List String,
      lines.map utf8 = (segments (utf8 doc) (starts.toList.map UInt32.toNat)).map withoutTerminator ∧
      lines.length = starts.size ∧
      render name (some doc) = name ++ ": " ++ "\\n".intercalate lines ∧
      ∀ c, c = '\r' ∨ c = '\n' → (render name (some doc)).toList.count c = name.toList.count c := by
  have hstarts : (WordIndex.ofIndex (LineIndex.ofText doc)).starts.toList.map UInt32.toNat =
      (LineIndex.ofText doc).starts := by
    rw [LineIndex.ofText_eq]
    exact WordIndex.map_starts_ofIndex hshort
  intro starts
  refine ⟨(lines doc.toList).map String.ofList, ?_, ?_, render_eq name doc, fun c => count_render name doc⟩
  · rw [hstarts]
    exact map_utf8_lines doc
  · rw [List.length_map, length_lines, ← hstarts, List.length_map, Array.length_toList]

/-- A carriage return in front of a line break is a line break of its own, and one at the end ends a line. -/
theorem render_lines_mixedBreaks :
    (utf8 "a\r\r\nb\r").length < 2 ^ 32 ∧
      ∃ lines : List String, lines.map utf8 = [[97], [], [98], []] ∧
        render "f" (some "a\r\r\nb\r") = "f" ++ ": " ++ "\\n".intercalate lines := by
  have hshort : (utf8 "a\r\r\nb\r").length < 2 ^ 32 := by decide +kernel
  obtain ⟨lines, hlines, _, hrender, _⟩ := render_lines "f" "a\r\r\nb\r" hshort
  refine ⟨hshort, lines, hlines.trans ?_, hrender⟩
  decide +kernel

/-! ## A comment that is too long -/

/-- A line of some letters, and one more line. -/
def twoLines (letters : Nat) : String := String.ofList (List.replicate letters 'a' ++ ['\n', 'b'])

theorem utf8_twoLines (letters : Nat) : utf8 (twoLines letters) = List.replicate letters 97 ++ [10, 98] := by
  have hletter : String.utf8EncodeChar 'a' = [97] := by decide
  rw [twoLines, utf8_ofList, encode, List.flatMap_append, List.flatMap_replicate, hletter,
    List.flatten_replicate_singleton]
  rfl

theorem starts_twoLines (letters : Nat) : (LineIndex.ofText (twoLines letters)).starts = [0, letters + 1] := by
  have hletters : BreakFree (List.replicate letters 97) := by
    constructor <;> exact fun h => absurd (List.eq_of_mem_replicate h) (by decide)
  rw [LineIndex.ofText_eq, utf8_twoLines, LineIndex.ofBytes, LineIndex.startsAfter_append hletters,
    List.length_replicate, Nat.zero_add]
  rfl

/-- What is joined stays in the whole. -/
theorem mem_intercalate {α : Type} {a : α} {separator part : List α} {parts : List (List α)}
    (hpart : part ∈ parts) (ha : a ∈ part) : a ∈ separator.intercalate parts := by
  obtain ⟨i, hi⟩ := List.mem_iff_getElem?.mp hpart
  have hmem : (parts.intersperse separator)[2 * i]? = some part :=
    List.getElem?_intersperse_two_mul.trans hi
  exact List.mem_flatten.mpr ⟨part, List.mem_of_getElem? hmem, ha⟩

/-- If the first line is taken to end after its first letter, the second one has a line feed inside. -/
theorem feed_mem_segments {letters : Nat} (hletters : 0 < letters) :
    ∃ line ∈ (segments (utf8 (twoLines letters)) [0, 1]).map withoutTerminator, 10 ∈ line := by
  obtain ⟨more, rfl⟩ := Nat.exists_eq_succ_of_ne_zero hletters.ne'
  have hsecond : (utf8 (twoLines (more + 1))).drop 1 = List.replicate more 97 ++ [10] ++ [98] := by
    rw [utf8_twoLines, List.replicate_succ, List.append_assoc]
    rfl
  refine ⟨List.replicate more 97 ++ [10] ++ [98], ?_, by simp⟩
  rw [segments, segments, hsecond, List.map_cons, List.map_singleton,
    withoutTerminator_concat (by decide) (by decide)]
  exact List.mem_cons_of_mem _ List.mem_cons_self

/-- So what is written is not these lines. -/
theorem render_twoLines_ne {letters : Nat} (hletters : 0 < letters) {lines : List String}
    (hlines : lines.map utf8 = (segments (utf8 (twoLines letters)) [0, 1]).map withoutTerminator) :
    render "f" (some (twoLines letters)) ≠ "f" ++ ": " ++ "\\n".intercalate lines := by
  intro hrender
  obtain ⟨_, hline, hfeed⟩ := feed_mem_segments hletters
  rw [← hlines] at hline
  obtain ⟨line, hmem, rfl⟩ := List.mem_map.mp hline
  have hnone : '\n' ∉ (render "f" (some (twoLines letters))).toList := by
    rw [← List.count_eq_zero, count_render _ _ (.inr rfl)]
    rfl
  refine hnone ?_
  rw [hrender, String.toList_append, String.toList_intercalate]
  exact List.mem_append_right _ (mem_intercalate (List.mem_map_of_mem hmem) (feed_mem_toList hfeed))

/-- The start of the second line of this comment loses its upper digit in words. -/
theorem render_lines_tooLong :
    let doc := twoLines (2 ^ 32)
    let starts := (WordIndex.ofIndex (LineIndex.ofText doc)).starts
    starts = #[0, 1] ∧
      ¬ ∃ lines : List String,
        lines.map utf8 = (segments (utf8 doc) (starts.toList.map UInt32.toNat)).map withoutTerminator ∧
        render "f" (some doc) = "f" ++ ": " ++ "\\n".intercalate lines := by
  have hstarts : (WordIndex.ofIndex (LineIndex.ofText (twoLines (2 ^ 32)))).starts = #[0, 1] := by
    rw [WordIndex.ofIndex, starts_twoLines]
    rfl
  refine ⟨hstarts, ?_⟩
  rintro ⟨lines, hlines, hrender⟩
  rw [hstarts] at hlines
  exact render_twoLines_ne (Nat.two_pow_pos 32) hlines hrender

end DocLine

end SymbolGraph
