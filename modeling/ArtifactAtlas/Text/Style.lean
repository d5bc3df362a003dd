/-!
# Styled texts

A terminal shows a text in a style when the text stands between control sequences:
one with the codes of the style and one that ends it.
-/

namespace ArtifactAtlas.Text

inductive Style where
  | bold
  | boldUnderlined
  | dim
  | yellow
  | cyan
  | red
  | boldRed
  deriving DecidableEq, Repr

def Style.codes : Style → String
  | bold => "1"
  | boldUnderlined => "1;4"
  | dim => "2"
  | yellow => "33"
  | cyan => "36"
  | red => "31"
  | boldRed => "1;31"

/-- The text in a style, where texts are styled at all. -/
def paint (styled : Bool) (style : Style) (text : String) : String :=
  if styled then "\x1b[" ++ style.codes ++ "m" ++ text ++ "\x1b[0m" else text

end ArtifactAtlas.Text
