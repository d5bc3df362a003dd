/-!
# Separated texts

A text read as the pieces between the occurrences of one character.  The empty
text has one empty piece, so a list of pieces is never empty and joining the
pieces with the separator gives the text back.
-/

namespace ArtifactAtlas.Text

/-- Puts `c` in front of the first piece. -/
def prepend (c : Char) : List (List Char) → List (List Char)
  | [] => [[c]]
  | piece :: rest => (c :: piece) :: rest

/-- The pieces of a text between the occurrences of `sep`, in order. -/
def split (sep : Char) : List Char → List (List Char)
  | [] => [[]]
  | c :: rest =>
      if c = sep then [] :: split sep rest else prepend c (split sep rest)

/-- The pieces in order, with `sep` between each two neighbours. -/
def join (sep : List Char) : List (List Char) → List Char
  | [] => []
  | [piece] => piece
  | piece :: next :: rest => piece ++ sep ++ join sep (next :: rest)

/-- Drops every empty piece at the end. -/
def dropTrailingEmpty : List (List Char) → List (List Char)
  | [] => []
  | piece :: rest =>
      match piece, dropTrailingEmpty rest with
      | [], [] => []
      | piece, kept => piece :: kept

def splitString (sep : Char) (text : String) : List String :=
  (split sep text.toList).map String.ofList

def joinStrings (sep : String) (pieces : List String) : String :=
  String.ofList (join sep.toList (pieces.map String.toList))

end ArtifactAtlas.Text
