/-!
# Readers

A reader takes a value off the front of a text or fails.
-/

namespace ArtifactAtlas.Toml

abbrev Reader := StateT (List Char) Option

namespace Reader

variable {α : Type}

def fail : Reader α :=
  fun _ => none

/-- The next character, which stays where it is. -/
def peek : Reader (Option Char) :=
  fun text => some (text.head?, text)

def next : Reader Char
  | [] => none
  | c :: rest => some (c, rest)

def word (letters : String) : Reader Unit :=
  fun text => (letters.toList.isPrefixOf? text).map ((), ·)

/-- Whether a word comes next, which then is taken. -/
def hasWord (letters : String) : Reader Bool :=
  fun text =>
    match letters.toList.isPrefixOf? text with
    | some rest => some (true, rest)
    | none => some (false, text)

def takeWhile (p : Char → Bool) : Reader (List Char) :=
  fun text => some (text.takeWhile p, text.dropWhile p)

/-- Repeats a step until it says that it was the last.  A step that takes nothing off the
text and is not the last fails. -/
def untilLast (step : Reader (α × Bool)) (text : List Char) : Option (List α × List Char) :=
  match step text with
  | none => none
  | some ((value, true), rest) => some ([value], rest)
  | some ((value, false), rest) =>
      if rest.length < text.length then
        (untilLast step rest).map fun (values, rest) => (value :: values, rest)
      else none
termination_by text.length

end Reader

end ArtifactAtlas.Toml
