import ArtifactAtlas.Text.WordChar

/-!
# Unlinked bytecode

Where a library is still to be linked, the hexadecimal text of a bytecode has a
placeholder as long as the text of an address.  There are two kinds: a hashed one
stands between `__$` and `$__`, a named one begins with `__` and goes on with a
padded library name.
-/

namespace ArtifactAtlas.Bytecode

/-- The length of a placeholder, which is that of an address. -/
def addressLength : Nat := 40

inductive Placeholder where
  | hashed
  | named
  deriving DecidableEq, Repr

namespace Placeholder

def begins : Placeholder → List Char → Bool
  | hashed, '_' :: '_' :: '$' :: rest =>
      (rest.take 34).length = 34 && (rest.take 34).all (· ≠ '\n') &&
        (rest.drop 34).take 3 = ['$', '_', '_']
  | named, '_' :: '_' :: rest => (rest.take 38).length = 38 && (rest.take 38).all Text.isWordChar
  | _, _ => false

def occurs (kind : Placeholder) : List Char → Bool
  | [] => false
  | c :: rest => kind.begins (c :: rest) || kind.occurs rest

/-- Zeros in place of placeholders, of which `inside` characters are still to come. -/
def zeroed (kind : Placeholder) (inside : Nat) : List Char → List Char
  | [] => []
  | c :: rest =>
      if 0 < inside then '0' :: kind.zeroed (inside - 1) rest
      else if kind.begins (c :: rest) then '0' :: kind.zeroed (addressLength - 1) rest
      else c :: kind.zeroed 0 rest

end Placeholder

/-- Whether a bytecode is still to be linked. -/
def hasPlaceholders (code : String) : Bool :=
  Placeholder.hashed.occurs code.toList || Placeholder.named.occurs code.toList

/-- The bytecode with every library at address zero. -/
def linkToZero (code : String) : String :=
  String.ofList (Placeholder.named.zeroed 0 (Placeholder.hashed.zeroed 0 code.toList))

/-! ## Link references -/

structure LinkReference where
  /-- The byte of the text at which the placeholder begins. -/
  start : Nat
  placeholder : String
  deriving DecidableEq, Repr

/-- The position of the address in the code that the text stands for. -/
def LinkReference.byteOffset (reference : LinkReference) (code : String) : Nat :=
  let lead := if ['0', 'x'].isPrefixOf code.toList then 2 else 0
  (reference.start - lead) / 2

/-- The placeholders of one kind from byte `position` on, after `inside` more characters. -/
def Placeholder.references (kind : Placeholder) (position inside : Nat) :
    List Char → List LinkReference
  | [] => []
  | c :: rest =>
      let next := position + c.utf8Size
      if 0 < inside then kind.references next (inside - 1) rest
      else if kind.begins (c :: rest) then
        ⟨position, String.ofList ((c :: rest).take addressLength)⟩ ::
          kind.references next (addressLength - 1) rest
      else kind.references next 0 rest

/-- Every placeholder of each kind, in the order in which they begin. -/
def linkReferences (code : String) : List LinkReference :=
  (Placeholder.hashed.references 0 0 code.toList).merge
    (Placeholder.named.references 0 0 code.toList) fun a b => a.start ≤ b.start

end ArtifactAtlas.Bytecode
