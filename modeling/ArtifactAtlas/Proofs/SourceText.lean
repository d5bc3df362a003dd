import ArtifactAtlas.Proofs.Text.Split
import ArtifactAtlas.SourceText

/-!
# The line of a position is a line of the text

However far behind the end of a text a position lies, no more line feeds come
before it than the text has, and the lines are one more than those.
-/

namespace ArtifactAtlas.SourceText

theorem lineFeedsBefore_le_count (offset : Nat) (text : List Char) :
    lineFeedsBefore offset text ≤ text.count '\n' := by
  induction text generalizing offset with
  | nil => simp [lineFeedsBefore]
  | cons c rest ih =>
      have hrest := ih (offset - c.utf8Size)
      rw [lineFeedsBefore, List.count_cons]
      split
      · omega
      · simp only [beq_iff_eq]
        split <;> omega

theorem length_lines (text : String) :
    (lines text).length = text.toList.count '\n' + 1 := by
  rw [lines, Text.splitString, List.length_map, Text.length_split]

/-- The lines, with a line feed between each two neighbours, are the text. -/
theorem joinStrings_lines (text : String) : Text.joinStrings "\n" (lines text) = text :=
  Text.joinStrings_splitString '\n' text

theorem lineAt_le_length_lines (text : String) (offset : Nat) :
    lineAt text offset ≤ (lines text).length := by
  rw [lineAt, length_lines]
  exact Nat.succ_le_succ (lineFeedsBefore_le_count offset text.toList)

theorem lineAt_pos (text : String) (offset : Nat) : 0 < lineAt text offset :=
  Nat.succ_pos _

/-- The text of the line that a position is on. -/
theorem exists_line?_lineAt (text : String) (offset : Nat) :
    ∃ content, line? text (lineAt text offset) = some content ∧
      (lines text)[lineAt text offset - 1]? = some content := by
  have hlt : lineAt text offset - 1 < (lines text).length := by
    have hle := lineAt_le_length_lines text offset
    have hpos := lineAt_pos text offset
    omega
  exact ⟨_, List.getElem?_eq_getElem hlt, List.getElem?_eq_getElem hlt⟩

end ArtifactAtlas.SourceText
