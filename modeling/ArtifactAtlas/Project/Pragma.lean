import ArtifactAtlas.Text.CharClass

/-!
# Version pragmas

The compiler version that a source asks for: the first version of three numbers
that a `pragma solidity` directive begins with.
-/

namespace ArtifactAtlas.Pragma

/-- The text after a word that it begins with. -/
def afterWord? (word : String) (text : List Char) : Option (List Char) :=
  word.toList.isPrefixOf? text

/-- The text after one blank or more. -/
def afterBlanks? : List Char → Option (List Char)
  | c :: rest => if Text.isBlank c then some (rest.dropWhile Text.isBlank) else none
  | [] => none

def isOperator (c : Char) : Bool :=
  ['^', '<', '>', '=', '~'].contains c

/-- One digit or more at the front of a text, and what follows. -/
def digits? (text : List Char) : Option (List Char × List Char) :=
  match text.takeWhile Text.isDigitChar with
  | [] => none
  | digits => some (digits, text.dropWhile Text.isDigitChar)

/-- Three numbers with points between them, at the front of a text. -/
def numbers? (text : List Char) : Option (List Char) := do
  let (major, rest) ← digits? text
  let (minor, rest) ← digits? (← afterWord? "." rest)
  let (patch, _) ← digits? (← afterWord? "." rest)
  return major ++ '.' :: minor ++ '.' :: patch

/-- The version of a directive that the text begins with. -/
def directive? (text : List Char) : Option (List Char) := do
  let rest ← afterBlanks? (← afterWord? "pragma" text)
  let rest ← afterBlanks? (← afterWord? "solidity" rest)
  numbers? ((rest.dropWhile isOperator).dropWhile Text.isBlank)

/-- The version of the first directive in a text that has one. -/
def firstVersion? : List Char → Option (List Char)
  | [] => none
  | c :: rest => (directive? (c :: rest)).or (firstVersion? rest)

def version? (source : String) : Option String :=
  (firstVersion? source.toList).map String.ofList

end ArtifactAtlas.Pragma
