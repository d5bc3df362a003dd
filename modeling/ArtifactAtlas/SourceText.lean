import ArtifactAtlas.Text.Split

/-!
# Lines of a source text

Lines end with a line feed and are numbered from one.  Compilers give positions
in bytes, so the line of a position depends on how many bytes each character
takes.
-/

namespace ArtifactAtlas.SourceText

/-- The line feeds that begin before byte `offset`. -/
def lineFeedsBefore (offset : Nat) : List Char → Nat
  | [] => 0
  | c :: rest =>
      if offset = 0 then 0
      else (if c = '\n' then 1 else 0) + lineFeedsBefore (offset - c.utf8Size) rest

/-- The number of the line that byte `offset` is on; a later byte is on the last line. -/
def lineAt (text : String) (offset : Nat) : Nat :=
  lineFeedsBefore offset text.toList + 1

/-- The lines in order, without their line feeds.  There is always at least one. -/
def lines (text : String) : List String :=
  Text.splitString '\n' text

/-- The line of that number, without its line feed. -/
def line? (text : String) : Nat → Option String
  | 0 => none
  | n + 1 => (lines text)[n]?

end ArtifactAtlas.SourceText
