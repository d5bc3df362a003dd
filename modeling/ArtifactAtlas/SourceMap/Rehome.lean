import ArtifactAtlas.Text.Numeral
import ArtifactAtlas.Text.Split

/-!
# Rehoming a source map

Points every entry of a compressed map that names a file at one target file.
The text is edited in place: nothing is decoded, so whatever an entry leaves
out it still leaves out.
-/

namespace ArtifactAtlas.SourceMap

/-- The third field moves to `target` unless it is empty or says "no file". -/
def rehomeFields (target : List Char) : List (List Char) → List (List Char)
  | offset :: length :: index :: rest =>
      if index = [] ∨ index = ['-', '1'] then offset :: length :: index :: rest
      else offset :: length :: target :: rest
  | fields => fields

def rehomeEntry (target entry : List Char) : List Char :=
  Text.join [':'] (rehomeFields target (Text.split ':' entry))

/-- The compressed map with every file index, other than `-1`, set to `target`. -/
def rehome (target : Nat) (text : String) : String :=
  String.ofList (Text.join [';']
    ((Text.split ';' text.toList).map (rehomeEntry (Numeral.ofNat target))))

end ArtifactAtlas.SourceMap
