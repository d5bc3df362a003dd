import ArtifactAtlas.Decimal.Binary64
import ArtifactAtlas.OrderedMap

/-!
# JSON values

Whole numbers are kept apart from binary floating point ones, and an object
keeps its members in the order in which their names first came up.
-/

namespace ArtifactAtlas

namespace Json

inductive Number where
  | natural (n : Nat)
  /-- The number `-n`, for a positive `n`. -/
  | negative (n : Nat)
  | real (x : Decimal.Binary64)
  deriving DecidableEq, Repr

end Json

inductive Json where
  | null
  | bool (b : Bool)
  | number (n : Json.Number)
  | string (s : String)
  | array (items : List Json)
  | object (members : List (String × Json))
  deriving Repr, Inhabited

namespace Json

/-- The member of an object; no other value has members. -/
def get? (name : String) : Json → Option Json
  | .object members => Entries.lookup name members
  | _ => none

def path? (names : List String) (value : Json) : Option Json :=
  names.foldl (fun at? name => at?.bind (·.get? name)) (some value)

def string? : Json → Option String
  | .string s => some s
  | _ => none

def natural? : Json → Option Nat
  | .number (.natural n) => some n
  | _ => none

def object? : Json → Option (List (String × Json))
  | .object members => some members
  | _ => none

def isNull : Json → Bool
  | .null => true
  | _ => false

/-- The value, unless it is `null`. -/
def present? (value : Json) : Option Json :=
  if value.isNull then none else some value

def ofNat (n : Nat) : Json :=
  .number (.natural n)

def ofInt : Int → Json
  | .ofNat n => .number (.natural n)
  | .negSucc n => .number (.negative (n + 1))

end Json

end ArtifactAtlas
