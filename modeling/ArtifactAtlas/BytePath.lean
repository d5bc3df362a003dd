import ArtifactAtlas.Path
import ArtifactAtlas.Text.Lossy

/-!
# Paths as bytes

The paths of a machine are bytes, and need not be the encoding of a text.  A slash or a
dot is one byte that belongs to no other character, so bytes have the components of the
text that has a character for each of them.  Written down as a text, a path has
replacements where its names are none.
-/

namespace ArtifactAtlas

structure BytePath where
  bytes : List UInt8
  deriving DecidableEq, Repr, Inhabited

namespace BytePath

def ofText (text : String) : BytePath :=
  ⟨text.toUTF8.data.toList⟩

/-- The path that has a character for each byte. -/
def toPath (path : BytePath) : Path :=
  ⟨String.ofList (path.bytes.map Char.ofUInt8)⟩

end BytePath

namespace Path

/-- The path of a text, with a character for each byte of its encoding. -/
def ofText (text : String) : Path :=
  (BytePath.ofText text).toPath

/-- The byte that a character stands for.  One that stands for no byte is taken for a
byte that no text has. -/
def byteOf (c : Char) : UInt8 :=
  if c.toNat < 256 then c.toUInt8 else 0xFF

/-- The component as a text that its bytes are read as. -/
def Component.written : Component → Component
  | .name text => .name (String.ofList (Text.lossy (text.toList.map byteOf)))
  | component => component

/-- The text that is written for a path of bytes. -/
def writtenText (path : Path) : String :=
  (ofComponents (path.components.map (·.written))).text

end Path

end ArtifactAtlas
