import ArtifactAtlas.BytePath
import ArtifactAtlas.Proofs.Path.Resolved
import ArtifactAtlas.Proofs.Text.Bytes

/-!
# Components of bytes

The path of a text has the components of the text, each by its bytes.  Writing turns a
name into a name, whatever its bytes are, so what stands behind a directory is written
component by component.  Only components that are texts come back from what is written.
-/

namespace ArtifactAtlas

/-- The bytes are the encoding of a text. -/
def BytePath.IsText (path : BytePath) : Prop :=
  ∃ text, .ofText text = path

namespace Path

/-! ## Characters for bytes -/

theorem byteOf_ofUInt8 (byte : UInt8) : byteOf (Char.ofUInt8 byte) = byte := by
  have hlt : (Char.ofUInt8 byte).toNat < 256 := byte.toNat_lt
  rw [byteOf, if_pos hlt]
  exact UInt8.toNat_inj.mp (Text.toNat_toUInt8 hlt)

theorem eq_of_byteOf_eq {c d : Char} (hd : d.toNat < 128) (h : byteOf c = d.toUInt8) :
    c = d := by
  have hval := congrArg UInt8.toNat h
  rw [Text.toNat_toUInt8 (Nat.lt_trans hd (by decide)), byteOf] at hval
  split at hval
  case isTrue hc =>
    rw [Text.toNat_toUInt8 hc] at hval
    exact Char.ext (UInt32.toNat_inj.mp hval)
  case isFalse =>
    have hlarge : (0xFF : UInt8).toNat = 255 := rfl
    omega

/-- The text that has a character for each byte of a text. -/
def encoded (text : List Char) : List Char :=
  (text.flatMap String.utf8EncodeChar).map Char.ofUInt8

theorem toList_ofText (text : String) : (ofText text).text.toList = encoded text.toList := by
  rw [ofText, BytePath.toPath, BytePath.ofText, String.toList_ofList, Text.toList_data_toUTF8]
  rfl

theorem encoded_cons (c : Char) (rest : List Char) :
    encoded (c :: rest) = (String.utf8EncodeChar c).map Char.ofUInt8 ++ encoded rest := by
  rw [encoded, List.flatMap_cons, List.map_append]
  rfl

theorem encoded_cons_slash (rest : List Char) : encoded ('/' :: rest) = '/' :: encoded rest :=
  encoded_cons '/' rest

theorem map_byteOf_encoded (text : List Char) :
    (encoded text).map byteOf = text.flatMap String.utf8EncodeChar := by
  rw [encoded, List.map_map]
  exact List.map_id'' byteOf_ofUInt8 _

theorem lossy_map_byteOf_encoded (text : List Char) :
    Text.lossy ((encoded text).map byteOf) = text := by
  rw [map_byteOf_encoded, Text.lossy_flatMap]

theorem encoded_injective : Function.Injective encoded := by
  intro text other h
  rw [← lossy_map_byteOf_encoded text, h, lossy_map_byteOf_encoded]

theorem slash_not_mem_map_ofUInt8 {c : Char} (hc : c ≠ '/') :
    '/' ∉ (String.utf8EncodeChar c).map Char.ofUInt8 := by
  intro hmem
  obtain ⟨byte, hbyte, hslash⟩ := List.mem_map.mp hmem
  have hcode : byte = '/'.toUInt8 := by rw [← byteOf_ofUInt8 byte, hslash]; rfl
  exact hc (Text.eq_of_mem_utf8EncodeChar (by decide) (hcode ▸ hbyte))

/-- A text is separated as its bytes are. -/
theorem split_encoded (text : List Char) :
    Text.split '/' (encoded text) = (Text.split '/' text).map encoded := by
  induction text with
  | nil => rfl
  | cons c rest ih =>
      by_cases hc : c = '/'
      · rw [hc, encoded_cons_slash, Text.split, Text.split, if_pos rfl, if_pos rfl, ih]
        rfl
      · cases hpieces : Text.split '/' rest with
        | nil => exact absurd hpieces (Text.split_ne_nil '/' rest)
        | cons piece pieces =>
            rw [hpieces, List.map_cons] at ih
            rw [encoded_cons, Text.split_append_of_split (slash_not_mem_map_ofUInt8 hc) ih,
              Text.split, if_neg hc, hpieces, Text.prepend, List.map_cons, encoded_cons]

/-! ## Components by their bytes -/

namespace Component

/-- The component of the bytes of a component's text. -/
def encoded : Component → Component
  | .name text => .name (String.ofList (Path.encoded text.toList))
  | component => component

theorem written_encoded (c : Component) : c.encoded.written = c := by
  cases c with
  | name text =>
      rw [encoded, written, String.toList_ofList, lossy_map_byteOf_encoded, String.ofList_toList]
  | root => rfl
  | current => rfl
  | parent => rfl

theorem encoded_injective : Function.Injective encoded :=
  Function.LeftInverse.injective written_encoded

/-- A component whose bytes are the encoding of a text. -/
def IsText (c : Component) : Prop :=
  ∃ text : Component, text.encoded = c

theorem isText_iff {c : Component} : c.IsText ↔ c.written.encoded = c := by
  constructor
  · rintro ⟨text, rfl⟩
    rw [written_encoded]
  · exact fun h => ⟨c.written, h⟩

instance : DecidablePred IsText :=
  fun _ => decidable_of_iff _ isText_iff.symm

theorem IsText.eq_of_written_eq {c d : Component} (hc : c.IsText) (hd : d.IsText)
    (h : c.written = d.written) : c = d := by
  rw [← isText_iff.mp hc, h, isText_iff.mp hd]

theorem isName_written (c : Component) : c.written.isName = c.isName := by
  cases c <;> rfl

theorem isName_encoded (c : Component) : c.encoded.isName = c.isName := by
  cases c <;> rfl

/-- Texts are what comes back from what is written. -/
theorem forall_isText_iff {components : List Component} :
    (∀ c ∈ components, c.IsText) ↔ (components.map written).map encoded = components := by
  conv_rhs => rw [List.map_map, ← List.map_id components, List.map_map, List.map_inj_left]
  exact forall₂_congr fun c _ => isText_iff

theorem eq_of_map_written_eq {components others : List Component}
    (h : ∀ c ∈ components, c.IsText) (hothers : ∀ c ∈ others, c.IsText)
    (hwritten : components.map written = others.map written) : components = others := by
  rw [← forall_isText_iff.mp h, hwritten, forall_isText_iff.mp hothers]

end Component

theorem component?_encoded (piece : List Char) :
    component? (encoded piece) = (component? piece).map Component.encoded := by
  by_cases hnil : piece = []
  · rw [hnil]
    rfl
  by_cases hdot : piece = ['.']
  · rw [hdot]
    rfl
  by_cases hdots : piece = ['.', '.']
  · rw [hdots]
    rfl
  rw [component?_eq_name hnil hdot hdots, Option.map_some, Component.encoded,
    String.toList_ofList]
  exact component?_eq_name (fun h => hnil (encoded_injective h))
    (fun h => hdot (encoded_injective h)) fun h => hdots (encoded_injective h)

theorem leading?_encoded (piece : List Char) :
    leading? (encoded piece) = (leading? piece).map Component.encoded := by
  by_cases hdot : piece = ['.']
  · rw [hdot]
    rfl
  · rw [leading?_of_ne hdot, leading?_of_ne fun h => hdot (encoded_injective h),
      component?_encoded]

theorem filterMap_component?_encoded (pieces : List (List Char)) :
    (pieces.map encoded).filterMap component? =
      (pieces.filterMap component?).map Component.encoded := by
  rw [List.filterMap_map, List.map_filterMap]
  exact List.filterMap_congr fun piece _ => component?_encoded piece

theorem head?_encoded_ne_slash {text : List Char} (h : text.head? ≠ some '/') :
    (encoded text).head? ≠ some '/' := by
  cases text with
  | nil => simp [encoded]
  | cons c rest =>
      have hc : c ≠ '/' := by simpa using h
      have hcode : (String.utf8EncodeChar c).map Char.ofUInt8 ≠ [] := by simp
      rw [encoded_cons, List.head?_append_of_ne_nil _ hcode]
      exact fun hhead => slash_not_mem_map_ofUInt8 hc (List.mem_of_mem_head? hhead)

/-- The path of a text has the components of the text, each by its bytes. -/
theorem components_ofText (text : String) :
    (ofText text).components = (Path.mk text).components.map Component.encoded := by
  rw [components, components, toList_ofText]
  by_cases hslash : text.toList.head? = some '/'
  · obtain ⟨rest, hrest⟩ := List.head?_eq_some_iff.mp hslash
    rw [hrest, encoded_cons_slash, componentsOf_slash_cons, componentsOf_slash_cons,
      split_encoded, filterMap_component?_encoded]
    rfl
  · cases hpieces : Text.split '/' text.toList with
    | nil => exact absurd hpieces (Text.split_ne_nil '/' _)
    | cons first rest =>
        have hencoded : Text.split '/' (encoded text.toList) =
            encoded first :: rest.map encoded := by
          rw [split_encoded, hpieces, List.map_cons]
        rw [componentsOf_of_split hslash hpieces,
          componentsOf_of_split (head?_encoded_ne_slash hslash) hencoded, leading?_encoded,
          filterMap_component?_encoded, List.map_append]
        cases leading? first <;> rfl

/-! ## What is written -/

theorem eq_of_map_byteOf_eq {text ascii : List Char} (hascii : ∀ c ∈ ascii, c.toNat < 128)
    (h : text.map byteOf = ascii.map Char.toUInt8) : text = ascii := by
  induction text generalizing ascii with
  | nil => exact (List.map_eq_nil_iff.mp h.symm).symm
  | cons c text ih =>
      obtain ⟨d, rest, rfl, hd, hrest⟩ := List.map_eq_cons_iff.mp h.symm
      rw [List.forall_mem_cons] at hascii
      rw [eq_of_byteOf_eq hascii.1 hd.symm, ih hascii.2 hrest.symm]

/-- An ASCII text is read from nothing but itself. -/
theorem eq_of_lossy_eq_ascii {text ascii : List Char} (hascii : ∀ c ∈ ascii, c.toNat < 128)
    (h : Text.lossy (text.map byteOf) = ascii) : text = ascii := by
  have hnone : Text.replacement ∉ ascii := fun hmem => absurd (hascii _ hmem) (by decide)
  have hbytes := Text.flatMap_lossy (h ▸ hnone)
  rw [h, Text.flatMap_utf8EncodeChar_eq_map hascii] at hbytes
  exact eq_of_map_byteOf_eq hascii hbytes.symm

/-- Whatever bytes a name has, it is written as a name. -/
theorem Component.Inner.written {c : Component} (h : c.Inner) : c.written.Inner := by
  cases c with
  | root => exact h
  | current => exact h
  | parent => exact h
  | name text =>
      obtain ⟨hslash, hread⟩ := h
      rw [Component.text] at hslash hread
      rw [Component.written, Inner, Component.text, String.toList_ofList]
      refine ⟨fun hmem => hslash ?_, component?_eq_name (fun hnil => ?_) (fun hdot => ?_)
        fun hdots => ?_⟩
      · have hbyte := Text.subset_of_mem_decodeFrom hmem (by decide) List.mem_cons_self
        obtain ⟨c, hc, hcode⟩ := List.mem_map.mp hbyte
        rwa [eq_of_byteOf_eq (by decide) hcode] at hc
      · have hempty := List.map_eq_nil_iff.mp (Text.lossy_eq_nil_iff.mp hnil)
        rw [hempty] at hread
        cases hread
      · rw [eq_of_lossy_eq_ascii (by simp) hdot] at hread
        cases hread
      · rw [eq_of_lossy_eq_ascii (by simp) hdots] at hread
        cases hread

/-- What is written for components is read as the components that are written for each. -/
theorem components_writtenText {path : Path} (h : ∀ c ∈ path.components, c.Inner) :
    (Path.mk path.writtenText).components = path.components.map (·.written) := by
  rw [writtenText]
  refine components_ofComponents (wellFormed_of_inner fun c hc => ?_)
  obtain ⟨inner, hinner, rfl⟩ := List.mem_map.mp hc
  exact (h inner hinner).written

/-! ## Paths of texts -/

theorem isText_of_mem_components_ofText {text : String} {c : Component}
    (h : c ∈ (ofText text).components) : c.IsText := by
  rw [components_ofText] at h
  obtain ⟨d, -, hd⟩ := List.mem_map.mp h
  exact ⟨d, hd⟩

theorem mem_of_mem_follow {trail : List Component} {c d : Component}
    (h : c ∈ follow trail d) : c = d ∨ c ∈ trail := by
  unfold follow at h
  split at h
  case h_1 => exact .inr h
  case h_2 =>
    split at h
    case h_1 => exact .inl (List.mem_singleton.mp h)
    case h_2 => exact List.mem_cons.mp h
    case h_3 => exact .inr (List.mem_cons_of_mem _ h)
  case h_3 => exact List.mem_cons.mp h

theorem mem_of_mem_resolveDots {components : List Component} {c : Component}
    (h : c ∈ resolveDots components) : c ∈ components := by
  have hrun : ∀ (rest trail : List Component), c ∈ rest.foldl follow trail →
      c ∈ rest ∨ c ∈ trail := by
    intro rest
    induction rest with
    | nil => exact fun trail => .inr
    | cons d rest ih =>
        intro trail hmem
        rcases ih _ hmem with hrest | hfollow
        · exact .inl (List.mem_cons_of_mem _ hrest)
        · rcases mem_of_mem_follow hfollow with rfl | htrail
          · exact .inl List.mem_cons_self
          · exact .inr htrail
  rw [resolveDots, List.mem_reverse] at h
  exact (hrun components [] h).resolve_right List.not_mem_nil

/-- Seen from a directory that is a text, a text leads along texts. -/
theorem isText_of_mem_absoluteFrom {text directory : String} {c : Component}
    (h : c ∈ ((ofText text).absoluteFrom (ofText directory)).components) : c.IsText := by
  rw [components_absoluteFrom] at h
  cases habsolute : (ofText text).isAbsolute with
  | true =>
      rw [join, if_pos habsolute] at h
      exact isText_of_mem_components_ofText (mem_of_mem_resolveDots h)
  | false =>
      rw [resolveDots_join habsolute] at h
      rcases List.mem_append.mp (mem_of_mem_resolveDots h) with hdirectory | htext
      · exact isText_of_mem_components_ofText hdirectory
      · exact isText_of_mem_components_ofText htext

end Path

end ArtifactAtlas
