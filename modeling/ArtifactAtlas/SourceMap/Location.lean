import ArtifactAtlas.SourceMap.Entry
import ArtifactAtlas.SourceText
import ArtifactAtlas.Text.CharClass

/-!
# Resolved locations

An entry resolves to a line of source text when its range starts somewhere, its
file index is in the source list and the text of that file is known.
-/

namespace ArtifactAtlas.SourceMap

structure Location where
  file : String
  line : Nat
  snippet : String
  deriving DecidableEq, Repr

/-- The text without carriage returns at its end. -/
def dropCarriageReturns (text : String) : String :=
  String.ofList (Text.dropTrailing (· = '\r') text.toList)

def Entry.location? (sourceText? : String → Option String) (sourceList : List String)
    (entry : Entry) : Option Location := do
  let offset ← entry.start?
  let file ← entry.file? sourceList
  let text ← sourceText? file
  let line := SourceText.lineAt text offset
  return ⟨file, line, dropCarriageReturns ((SourceText.line? text line).getD "")⟩

/-- Where the first entry that resolves leads. -/
def firstLocation? (sourceText? : String → Option String) (sourceList : List String)
    (entries : List Entry) : Option Location :=
  entries.findSome? (·.location? sourceText? sourceList)

end ArtifactAtlas.SourceMap
