import ArtifactAtlas.Json.Format
import ArtifactAtlas.Text.CharClass
import ArtifactAtlas.Text.Numeral

/-!
# Severities

How bad an issue is.  An issue whose severity is missing or not understood counts
as the least severe of all.
-/

namespace ArtifactAtlas

inductive Severity where
  | unknown
  | none
  | low
  | medium
  | high
  deriving DecidableEq, Repr, Inhabited

namespace Severity

def all : List Severity := [unknown, none, low, medium, high]

def name : Severity → String
  | unknown => "unknown"
  | none => "none"
  | low => "low"
  | medium => "medium"
  | high => "high"

/-- Severities rank from least to most severe. -/
def rank : Severity → Nat
  | unknown => 0
  | none => 1
  | low => 2
  | medium => 3
  | high => 4

instance : LE Severity := ⟨fun a b => a.rank ≤ b.rank⟩
instance : LT Severity := ⟨fun a b => a.rank < b.rank⟩

instance (a b : Severity) : Decidable (a ≤ b) := inferInstanceAs (Decidable (a.rank ≤ b.rank))
instance (a b : Severity) : Decidable (a < b) := inferInstanceAs (Decidable (a.rank < b.rank))

def ofName? (text : String) : Option Severity :=
  Text.keyword? all name text

/-- What a report's text for a severity means; blanks around it do not count. -/
def ofReported (text : String) : Severity :=
  (ofName? (String.ofList (Text.trim text.toList))).getD unknown

/-- A name, or `null` for an unknown severity. -/
def format : Json.Format Severity where
  shape := .optional .text
  decode
    | .null => some unknown
    | value => value.string?.map ofReported
  encode severity := .string severity.name

end Severity

end ArtifactAtlas
