import ArtifactAtlas.Artifact.BuildFile
import ArtifactAtlas.Proofs.Text.Bytes

/-!
# Build files in ASCII

A byte below 128 is a character by itself.  So a file of such bytes can be read
character by character, and it is the same build file.
-/

namespace ArtifactAtlas

namespace Text

/-- The characters of a file, if all of them are ASCII. -/
def ascii? (bytes : List UInt8) : Option (List Char) :=
  bytes.mapM fun byte => if byte < 128 then some (Char.ofNat byte.toNat) else none

theorem utf8EncodeChar_of_lt {byte : UInt8} (h : byte < 128) :
    String.utf8EncodeChar (Char.ofNat byte.toNat) = [byte] := by
  have hlt : byte.toNat < 128 := by simpa [UInt8.lt_iff_toNat_lt] using h
  have hvalid : byte.toNat.isValidChar := .inl (by omega)
  have hval : (Char.ofNat byte.toNat).toNat = byte.toNat := by
    rw [Char.ofNat, dif_pos hvalid]
    rfl
  rw [utf8EncodeChar_of_ascii (hval.symm ▸ hlt), List.cons.injEq, ← UInt8.toNat_inj,
    toNat_toUInt8 (by omega)]
  exact ⟨hval, rfl⟩

theorem flatMap_utf8EncodeChar_of_ascii? {bytes : List UInt8} {chars : List Char}
    (h : ascii? bytes = some chars) : chars.flatMap String.utf8EncodeChar = bytes := by
  induction bytes generalizing chars with
  | nil =>
      cases h
      rfl
  | cons byte rest ih =>
      simp only [ascii?, List.mapM_cons, Option.bind_eq_bind, Option.bind_eq_some_iff,
        Option.pure_def, Option.some.injEq] at h
      obtain ⟨c, hc, others, hothers, rfl⟩ := h
      split at hc
      case isTrue hlt =>
        cases hc
        rw [List.flatMap_cons, utf8EncodeChar_of_lt hlt, ih hothers]
        rfl
      case isFalse => cases hc

theorem fromUTF8?_of_ascii? {bytes : ByteArray} {chars : List Char}
    (h : ascii? bytes.data.toList = some chars) :
    String.fromUTF8? bytes = some (String.ofList chars) := by
  have hbytes : bytes = chars.utf8Encode := by
    rw [List.utf8Encode, flatMap_utf8EncodeChar_of_ascii? h]
    apply ByteArray.ext
    rw [List.data_toByteArray]
  subst hbytes
  rw [String.fromUTF8?, dif_pos ⟨chars, rfl⟩]
  rfl

end Text

namespace Json

/-- Reads any JSON text, given as its characters. -/
def parseChars (chars : List Char) : Except Fault Json :=
  let (document, complete) := scan chars
  match document.fault? 0 .any with
  | some fault => .error fault
  | none => if complete then .ok document.value else .error .malformed

theorem parse_ofList (chars : List Char) : parse (String.ofList chars) = parseChars chars := by
  rw [parse, Format.read, String.toList_ofList]
  rfl

end Json

namespace BuildFile

/-- Reads a JSON file, character by character if it is ASCII. -/
def readAscii (tree : FileTree) (path : Path) : Except Failure BuildFile :=
  match tree.find path with
  | .error fault => .error (.unreadable path fault)
  | .ok ⟨_, .directory _⟩ => .error (.unreadable path .isADirectory)
  | .ok ⟨_, .file content⟩ =>
      match Text.ascii? content.data.toList with
      | none => read tree path
      | some chars =>
          match Json.parseChars chars with
          | .error fault => .error (.malformed path fault)
          | .ok data => .ok ⟨path, data⟩

theorem read_eq_readAscii : read = readAscii := by
  funext tree path
  rw [readAscii]
  split
  case h_1 fault hfind => rw [read, FileTree.readText, hfind]
  case h_2 hfind => rw [read, FileTree.readText, hfind]
  case h_3 content hfind =>
    split
    case h_1 => rfl
    case h_2 chars hchars =>
      have htext : tree.readText path = .ok (String.ofList chars) := by
        rw [FileTree.readText, hfind]
        simp only [Text.fromUTF8?_of_ascii? hchars]
      cases hparse : Json.parseChars chars <;>
        simp only [read, htext, Json.parse_ofList, hparse]

end BuildFile

def FileTree.Node.ofAscii (chars : List Char) : FileTree.Node :=
  .file ⟨(chars.map fun c => UInt8.ofNat c.toNat).toArray⟩

end ArtifactAtlas
