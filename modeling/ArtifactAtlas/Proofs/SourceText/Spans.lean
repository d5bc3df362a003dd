import ArtifactAtlas.Proofs.SourceText
import ArtifactAtlas.Proofs.Text.Bytes
import Mathlib.Data.String.Basic

/-!
# The line at a byte

Numbering counts the line feeds among the bytes before a byte, and the lines are the
pieces of characters between line feeds.  Both views meet in the bytes that a line takes
up: a byte is on the one line that begins no later and ends no earlier, where a line feed
still belongs to the line that it ends.
-/

namespace ArtifactAtlas.SourceText

open String (utf8Len utf8Len_cons utf8Len_append utf8Len_toList)

/-! ## Line feeds before a byte -/

@[simp] theorem lineFeedsBefore_zero (text : List Char) : lineFeedsBefore 0 text = 0 := by
  cases text <;> simp [lineFeedsBefore]

theorem lineFeedsBefore_mono {offset later : Nat} (h : offset ≤ later) (text : List Char) :
    lineFeedsBefore offset text ≤ lineFeedsBefore later text := by
  induction text generalizing offset later with
  | nil => simp [lineFeedsBefore]
  | cons c rest ih =>
      by_cases hoffset : offset = 0
      · simp [hoffset]
      · have hlater : later ≠ 0 := by omega
        have hrest := ih (Nat.sub_le_sub_right h c.utf8Size)
        simp only [lineFeedsBefore, if_neg hoffset, if_neg hlater]
        omega

/-- Behind the end of a text there is nothing more to count. -/
theorem lineFeedsBefore_min (offset : Nat) (text : List Char) :
    lineFeedsBefore (min offset (utf8Len text)) text = lineFeedsBefore offset text := by
  induction text generalizing offset with
  | nil => simp [lineFeedsBefore]
  | cons c rest ih =>
      by_cases hoffset : offset = 0
      · simp [hoffset]
      · have hpos := c.utf8Size_pos
        have hmin : min offset (utf8Len (c :: rest)) ≠ 0 := by
          rw [utf8Len_cons]
          omega
        have hrest : min offset (utf8Len (c :: rest)) - c.utf8Size =
            min (offset - c.utf8Size) (utf8Len rest) := by
          rw [utf8Len_cons]
          omega
        simp only [lineFeedsBefore, if_neg hoffset, if_neg hmin, hrest, ih]

theorem lineFeedsBefore_append {front : List Char} {offset : Nat}
    (h : utf8Len front ≤ offset) (back : List Char) :
    lineFeedsBefore offset (front ++ back) =
      front.count '\n' + lineFeedsBefore (offset - utf8Len front) back := by
  induction front generalizing offset with
  | nil => simp
  | cons c front ih =>
      have hpos := c.utf8Size_pos
      rw [utf8Len_cons] at h
      have hoffset : offset ≠ 0 := by omega
      have hfront : utf8Len front ≤ offset - c.utf8Size := by omega
      have hsub : offset - c.utf8Size - utf8Len front = offset - utf8Len (c :: front) := by
        rw [utf8Len_cons]
        omega
      rw [List.cons_append, lineFeedsBefore, if_neg hoffset, ih hfront, hsub, List.count_cons]
      simp only [beq_iff_eq]
      omega

/-- Within a line no line feed is passed. -/
theorem lineFeedsBefore_append_eq_zero {content : List Char} {offset : Nat}
    (hcontent : '\n' ∉ content) (h : offset ≤ utf8Len content) (after : List Char) :
    lineFeedsBefore offset (content ++ after) = 0 := by
  induction content generalizing offset with
  | nil =>
      obtain rfl : offset = 0 := by simpa using h
      simp
  | cons c content ih =>
      rw [utf8Len_cons] at h
      simp only [List.mem_cons, not_or] at hcontent
      have hle : offset - c.utf8Size ≤ utf8Len content := by omega
      simp [lineFeedsBefore, Ne.symm hcontent.1, ih hcontent.2 hle]

/-- A line feed has been counted as soon as the byte lies behind it. -/
theorem count_lt_lineFeedsBefore_iff (front back : List Char) (offset : Nat) :
    front.count '\n' < lineFeedsBefore offset (front ++ '\n' :: back) ↔ utf8Len front < offset := by
  constructor
  · intro hlt
    by_contra! hle
    have hpassed := lineFeedsBefore_mono hle (front ++ '\n' :: back)
    rw [lineFeedsBefore_append (Nat.le_refl _), Nat.sub_self, lineFeedsBefore_zero] at hpassed
    omega
  · intro hlt
    have hoffset : offset - utf8Len front ≠ 0 := by omega
    rw [lineFeedsBefore_append (Nat.le_of_lt hlt), lineFeedsBefore, if_neg hoffset, if_pos rfl]
    omega

/-! ## Counting bytes -/

theorem count_take_utf8EncodeChar {length : Nat} (h : length ≠ 0) (c : Char) :
    ((String.utf8EncodeChar c).take length).count 10 = if c = '\n' then 1 else 0 := by
  split
  case isTrue hc =>
    have hcode : String.utf8EncodeChar '\n' = [10] := rfl
    rw [hc, hcode, List.take_of_length_le (Nat.one_le_iff_ne_zero.mpr h)]
    rfl
  case isFalse hc =>
    refine List.count_eq_zero_of_not_mem fun hmem => hc ?_
    exact Text.eq_of_mem_utf8EncodeChar (by decide) (List.mem_of_mem_take hmem)

theorem lineFeedsBefore_eq_count (offset : Nat) (text : List Char) :
    lineFeedsBefore offset text =
      ((text.flatMap String.utf8EncodeChar).take offset).count 10 := by
  induction text generalizing offset with
  | nil => simp [lineFeedsBefore]
  | cons c rest ih =>
      by_cases hoffset : offset = 0
      · simp [hoffset]
      · rw [List.flatMap_cons, List.take_append, List.count_append, String.length_utf8EncodeChar,
          ← ih, count_take_utf8EncodeChar hoffset, lineFeedsBefore, if_neg hoffset]

theorem lineAt_eq_count (text : String) (offset : Nat) :
    lineAt text offset = (text.toUTF8.data.toList.take offset).count 10 + 1 := by
  rw [lineAt, lineFeedsBefore_eq_count, Text.toList_data_toUTF8]

/-! ## Where a line stands -/

/-- The text of a line begins at byte `start`: before it come the line feeds of the
earlier lines, the last of them right before it, and behind it the next one or the end. -/
def StandsAt (text : String) (line : Nat) (content : String) (start : Nat) : Prop :=
  line? text line = some content ∧ ∃ before after : String,
    text = before ++ content ++ after ∧ before.utf8ByteSize = start ∧
    before.toList.count '\n' + 1 = line ∧
    (before = "" ∨ ∃ front, before = front ++ "\n") ∧
    (after = "" ∨ ∃ back, after = "\n" ++ back)

/-- The byte lies on the line or right behind its last character; a byte behind the end of
the text counts as the end. -/
def Covers (text : String) (line offset : Nat) : Prop :=
  ∃ content start, StandsAt text line content start ∧
    start ≤ min offset text.utf8ByteSize ∧
    min offset text.utf8ByteSize ≤ start + content.utf8ByteSize

theorem exists_piece_of_line? {text content : String} {line : Nat}
    (h : line? text line = some content) :
    ∃ n, line = n + 1 ∧ (Text.split '\n' text.toList)[n]? = some content.toList := by
  cases line with
  | zero => cases h
  | succ n =>
      rw [line?, lines, Text.splitString, List.getElem?_map, Option.map_eq_some_iff] at h
      obtain ⟨piece, hpiece, rfl⟩ := h
      exact ⟨n, rfl, by rw [hpiece, String.toList_ofList]⟩

theorem newline_not_mem_of_line? {text content : String} {line : Nat}
    (h : line? text line = some content) : '\n' ∉ content.toList := by
  obtain ⟨n, -, hpiece⟩ := exists_piece_of_line? h
  exact Text.not_mem_of_mem_split (List.mem_of_getElem? hpiece)

theorem exists_standsAt {text content : String} {line : Nat}
    (h : line? text line = some content) : ∃ start, StandsAt text line content start := by
  obtain ⟨n, rfl, hpiece⟩ := exists_piece_of_line? h
  obtain ⟨before, after, htext, hcount, hbefore, hafter⟩ := Text.exists_split_place hpiece
  refine ⟨_, h, String.ofList before, String.ofList after, ?_, rfl, ?_, ?_, ?_⟩
  · apply String.toList_injective
    simp [htext]
  · rw [String.toList_ofList, hcount]
  · rcases hbefore with rfl | ⟨front, rfl⟩
    · exact .inl rfl
    · exact .inr ⟨String.ofList front, String.ofList_append⟩
  · rcases hafter with rfl | ⟨back, rfl⟩
    · exact .inl rfl
    · exact .inr ⟨String.ofList back, String.ofList_cons⟩

/-! ## The one line that covers a byte -/

theorem lineAt_of_covers {text : String} {line offset : Nat} (h : Covers text line offset) :
    line = lineAt text offset := by
  obtain ⟨content, start, ⟨hline, before, after, rfl, rfl, hcount, -, -⟩, hstart, hend⟩ := h
  have hnewline := newline_not_mem_of_line? hline
  rw [lineAt, ← hcount, ← lineFeedsBefore_min, utf8Len_toList]
  generalize min offset (before ++ content ++ after).utf8ByteSize = byte at hstart hend ⊢
  rw [← utf8Len_toList] at hstart hend
  rw [← utf8Len_toList] at hend
  have hbyte : byte - utf8Len before.toList ≤ utf8Len content.toList := by omega
  rw [String.toList_append, String.toList_append, List.append_assoc,
    lineFeedsBefore_append hstart, lineFeedsBefore_append_eq_zero hnewline hbyte]

theorem covers_lineAt (text : String) (offset : Nat) : Covers text (lineAt text offset) offset := by
  obtain ⟨content, hline, -⟩ := exists_line?_lineAt text offset
  obtain ⟨start, hstands⟩ := exists_standsAt hline
  refine ⟨content, start, hstands, ?_⟩
  obtain ⟨-, before, after, rfl, rfl, hcount, hbefore, hafter⟩ := hstands
  rw [lineAt, ← lineFeedsBefore_min, utf8Len_toList, Nat.succ_inj] at hcount
  have hsize := Nat.min_le_right offset (before ++ content ++ after).utf8ByteSize
  generalize min offset (before ++ content ++ after).utf8ByteSize = byte at hcount hsize ⊢
  simp only [← utf8Len_toList, String.toList_append, utf8Len_append] at hcount hsize ⊢
  constructor
  · -- the line feed in front of the line has been counted
    rcases hbefore with rfl | ⟨front, rfl⟩
    · exact Nat.zero_le byte
    · rw [String.toList_append, utf8Len_append]
      apply (count_lt_lineFeedsBefore_iff front.toList (content.toList ++ after.toList) byte).mp
      simp only [String.toList_append, String.reduceToList, List.count_append,
        List.count_cons_self, List.count_nil, List.append_assoc, List.cons_append,
        List.nil_append] at hcount ⊢
      omega
  · -- the one behind it has not
    rcases hafter with rfl | ⟨back, rfl⟩
    · exact hsize
    · rw [← utf8Len_append, ← Nat.not_lt, ← count_lt_lineFeedsBefore_iff _ back.toList]
      simp only [String.toList_append, String.reduceToList, List.count_append, List.append_assoc,
        List.cons_append, List.nil_append] at hcount ⊢
      omega

/-! ## Main result -/

/--
The line feeds among the bytes before a byte number the one line that covers it, wherever
the byte lies: within a character, on a line feed or behind the end of the text.  Later
bytes are not on earlier lines.
-/
theorem lineAt_is_only_line_at_byte (text : String) (offset : Nat) :
    lineAt text offset = (text.toUTF8.data.toList.take offset).count 10 + 1 ∧
    (∃ content, line? text (lineAt text offset) = some content) ∧
    (∀ line, Covers text line offset ↔ line = lineAt text offset) ∧
    (∀ later, offset ≤ later → lineAt text offset ≤ lineAt text later) := by
  refine ⟨lineAt_eq_count text offset, ?_, fun line => ⟨lineAt_of_covers, ?_⟩, ?_⟩
  · obtain ⟨content, hline, -⟩ := exists_line?_lineAt text offset
    exact ⟨content, hline⟩
  · rintro rfl
    exact covers_lineAt text offset
  · intro later hle
    exact Nat.succ_le_succ (lineFeedsBefore_mono hle text.toList)

end ArtifactAtlas.SourceText
