import ArtifactAtlas.Json.Format
import ArtifactAtlas.OrderedMap
import ArtifactAtlas.Text.Numeral

/-!
# Map formats

A map is written as an object with its entries in the order of their keys.  Names
of members are keys; a number as a key is named by its shortest numeral.
-/

namespace ArtifactAtlas.Json

/-- The number whose shortest numeral that is. -/
def numberOfName? (name : String) : Option Nat :=
  (Numeral.size? name.toList).filter fun n => Numeral.text n = name

namespace Format

variable {α : Type}

/-- An object whose names are the keys. -/
def mapping (format : Format α) : Format (OrderedMap String α) where
  shape := .mapping format.shape
  decode
    | .object members =>
        (members.mapM fun member => (format.decode member.2).map (member.1, ·)).map
          OrderedMap.ofList
    | _ => none
  encode map := .object (map.toList.map fun entry => (entry.1, format.encode entry.2))

/-- An object whose names stand for the keys. -/
def numbered (format : Format α) : Format (OrderedMap Nat α) where
  shape := .numbered format.shape
  decode
    | .object members =>
        (members.mapM fun (member : String × Json) => do
          return (← numberOfName? member.1, ← format.decode member.2)).map
          OrderedMap.ofList
    | _ => none
  encode map :=
    .object (map.toList.map fun entry => (Numeral.text entry.1, format.encode entry.2))

end Format

end ArtifactAtlas.Json
