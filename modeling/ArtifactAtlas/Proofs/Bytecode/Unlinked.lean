import ArtifactAtlas.Proofs.Bytecode.Linking

/-!
# Unlinked code as compilers write it

Runs of hexadecimal digits and placeholders, perhaps after `0x`.  A hashed
placeholder has hexadecimal digits for its body, a named one a library name that
is filled up with underscores.  Such code is taken apart segment by segment, so
that what linking writes and which placeholders are listed can be read off the
segments.
-/

namespace ArtifactAtlas.Bytecode

/-! ## Characters -/

def hexDigits : List Char :=
  "0123456789abcdefABCDEF".toList

def isHexDigit (c : Char) : Bool :=
  hexDigits.contains c

/-- The word characters of ASCII. -/
def isNameChar (c : Char) : Bool :=
  c.toNat < 0x80 && Text.isWordChar c

theorem isNameChar_of_isHexDigit {c : Char} (h : isHexDigit c = true) :
    isNameChar c = true := by
  have hall : hexDigits.all isNameChar = true := by decide
  exact List.all_eq_true.mp hall c (List.contains_iff_mem.mp h)

theorem toNat_lt_of_isNameChar {c : Char} (h : isNameChar c = true) :
    c.toNat < 0x80 := by
  simp only [isNameChar, Bool.and_eq_true, decide_eq_true_eq] at h
  exact h.1

theorem isWordChar_of_isNameChar {c : Char} (h : isNameChar c = true) :
    Text.isWordChar c = true := by
  simp only [isNameChar, Bool.and_eq_true] at h
  exact h.2

theorem utf8Size_of_toNat_lt {c : Char} (h : c.toNat < 0x80) : c.utf8Size = 1 :=
  Char.utf8Size_eq_one_iff.mpr (Nat.le_of_lt_succ h)

/-! ## Segments -/

/-- What a compiler puts into the body of a placeholder. -/
def Placeholder.writes : Placeholder → Char → Bool
  | hashed, c => isHexDigit c
  | named, c => isNameChar c

inductive Segment where
  | code (digits : List Char) (isHex : ∀ c ∈ digits, isHexDigit c = true)
  | placeholder (kind : Placeholder) (body : List Char)
      (length : body.length = kind.bodyLength)
      (written : ∀ c ∈ body, kind.writes c = true)

namespace Segment

def text : Segment → List Char
  | code digits _ => digits
  | placeholder kind body _ _ => kind.opening ++ body ++ kind.closing

/-- The segment with zeros in place of a placeholder whose kind passes a test. -/
def linkIf (chosen : Placeholder → Bool) : Segment → Segment
  | code digits isHex => code digits isHex
  | placeholder kind body length written =>
      if chosen kind then
        code (List.replicate addressLength '0') (by
          intro c hc
          rw [List.eq_of_mem_replicate hc]
          decide)
      else placeholder kind body length written

end Segment

abbrev Segments := List Segment

namespace Segments

def text (segments : Segments) : List Char :=
  segments.flatMap Segment.text

def linkIf (chosen : Placeholder → Bool) (segments : Segments) : Segments :=
  segments.map (Segment.linkIf chosen)

/-- The placeholders whose kind passes a test, with the first segment at `position`. -/
def references (chosen : Placeholder → Bool) (position : Nat) :
    Segments → List LinkReference
  | [] => []
  | segment :: rest =>
      let next := references chosen (position + segment.text.length) rest
      match segment with
      | .code _ _ => next
      | .placeholder kind _ _ _ =>
          if chosen kind then ⟨position, String.ofList segment.text⟩ :: next
          else next

end Segments

/-- Unlinked code with or without a leading `0x`. -/
structure Unlinked where
  hasLead : Bool
  segments : Segments

namespace Unlinked

def lead (code : Unlinked) : List Char :=
  if code.hasLead then ['0', 'x'] else []

def text (code : Unlinked) : String :=
  String.ofList (code.lead ++ Segments.text code.segments)

/-- The code with every placeholder at address zero. -/
def linked (code : Unlinked) : String :=
  String.ofList (code.lead ++ Segments.text (code.segments.linkIf fun _ => true))

/-- Every placeholder of the code with its position, in order. -/
def placeholders (code : Unlinked) : List LinkReference :=
  code.segments.references (fun _ => true) code.lead.length

end Unlinked

/-! ## The text of segments -/

theorem Placeholder.toNat_lt_of_mem_opening {kind : Placeholder} {c : Char}
    (h : c ∈ kind.opening) : c.toNat < 0x80 := by
  have hall : kind.opening.all (·.toNat < 0x80) = true := by cases kind <;> decide
  simpa using List.all_eq_true.mp hall c h

theorem Placeholder.toNat_lt_of_mem_closing {kind : Placeholder} {c : Char}
    (h : c ∈ kind.closing) : c.toNat < 0x80 := by
  have hall : kind.closing.all (·.toNat < 0x80) = true := by cases kind <;> decide
  simpa using List.all_eq_true.mp hall c h

theorem toNat_lt_of_mem_text {segment : Segment} {c : Char}
    (h : c ∈ segment.text) : c.toNat < 0x80 := by
  cases segment with
  | code digits isHex =>
      exact toNat_lt_of_isNameChar (isNameChar_of_isHexDigit (isHex c h))
  | placeholder kind body length written =>
      simp only [Segment.text, List.mem_append] at h
      rcases h with (h | h) | h
      · exact Placeholder.toNat_lt_of_mem_opening h
      · have hwritten := written c h
        cases kind with
        | hashed => exact toNat_lt_of_isNameChar (isNameChar_of_isHexDigit hwritten)
        | named => exact toNat_lt_of_isNameChar hwritten
      · exact Placeholder.toNat_lt_of_mem_closing h

theorem bytes_eq_length {text : List Char} (h : ∀ c ∈ text, c.toNat < 0x80) :
    Placeholder.bytes text = text.length := by
  induction text with
  | nil => rfl
  | cons c rest ih =>
      simp only [List.forall_mem_cons] at h
      have hrest := ih h.2
      rw [Placeholder.bytes, utf8Size_of_toNat_lt h.1, hrest, List.length_cons,
        Nat.add_comm]

theorem Segment.bytes_text (segment : Segment) :
    Placeholder.bytes segment.text = segment.text.length :=
  bytes_eq_length fun _ => toNat_lt_of_mem_text

theorem underscore_not_mem_of_isHexDigit {text : List Char}
    (h : ∀ c ∈ text, isHexDigit c = true) : '_' ∉ text :=
  fun hmem => absurd (h '_' hmem) (by decide)

theorem dollar_not_mem_of_isNameChar {text : List Char}
    (h : ∀ c ∈ text, isNameChar c = true) : '$' ∉ text :=
  fun hmem => absurd (h '$' hmem) (by decide)

theorem Placeholder.fits_of_writes {kind : Placeholder} {body : List Char}
    (hlength : body.length = kind.bodyLength)
    (hwritten : ∀ c ∈ body, kind.writes c = true) :
    kind.Fits (kind.opening ++ body ++ kind.closing) := by
  refine ⟨body, hlength, fun c hc => ?_, rfl⟩
  have hwrites := hwritten c hc
  cases kind with
  | hashed =>
      have hne : c ≠ '\n' := by
        rintro rfl
        exact absurd hwrites (by decide)
      simpa [mayHold] using hne
  | named => exact isWordChar_of_isNameChar hwrites

namespace Segments

@[simp] theorem text_cons (segment : Segment) (rest : Segments) :
    text (segment :: rest) = segment.text ++ text rest := by
  simp [text]

theorem bytes_text (segments : Segments) :
    Placeholder.bytes (text segments) = (text segments).length := by
  induction segments with
  | nil => rfl
  | cons segment rest ih =>
      rw [text_cons, Placeholder.bytes_append, segment.bytes_text, ih, List.length_append]

/-- No placeholder of the kind begins within one of the other kind. -/
def Apart (kind : Placeholder) : Segments → Prop
  | [] => True
  | .code _ _ :: rest => Apart kind rest
  | .placeholder other body _ _ :: rest =>
      (other ≠ kind →
        kind.Silent (text rest) (other.opening ++ body ++ other.closing)) ∧
      Apart kind rest

theorem zeroed_text {kind : Placeholder} {segments : Segments}
    (h : Apart kind segments) :
    kind.zeroed 0 (text segments) = text (segments.linkIf (· = kind)) := by
  induction segments with
  | nil => rfl
  | cons segment rest ih =>
      cases segment with
      | code digits isHex =>
          have hsilent := Placeholder.silent_of_underscore_not_mem
            (underscore_not_mem_of_isHexDigit isHex) kind (text rest)
          rw [text_cons, Segment.text, hsilent.zeroed_append, ih h]
          simp [linkIf, Segment.linkIf, Segment.text]
      | placeholder other body length written =>
          obtain ⟨hother, hrest⟩ := h
          rw [text_cons, Segment.text]
          by_cases hkind : other = kind
          · subst hkind
            rw [Placeholder.zeroed_append (Placeholder.fits_of_writes length written),
              ih hrest]
            simp [linkIf, Segment.linkIf, Segment.text]
          · rw [(hother hkind).zeroed_append, ih hrest]
            simp [linkIf, Segment.linkIf, Segment.text, hkind]

theorem references_text {kind : Placeholder} {segments : Segments}
    (h : Apart kind segments) (position : Nat) :
    kind.references position 0 (text segments) =
      segments.references (· = kind) position := by
  induction segments generalizing position with
  | nil => rfl
  | cons segment rest ih =>
      have hbytes := segment.bytes_text
      cases segment with
      | code digits isHex =>
          have hsilent := Placeholder.silent_of_underscore_not_mem
            (underscore_not_mem_of_isHexDigit isHex) kind (text rest)
          rw [Segment.text] at hbytes
          rw [text_cons, Segment.text, hsilent.references_append, hbytes, ih h]
          rfl
      | placeholder other body length written =>
          obtain ⟨hother, hrest⟩ := h
          rw [Segment.text] at hbytes
          rw [text_cons, Segment.text]
          by_cases hkind : other = kind
          · subst hkind
            rw [Placeholder.references_append
              (Placeholder.fits_of_writes length written), hbytes, ih hrest]
            simp [references, Segment.text]
          · rw [(hother hkind).references_append, hbytes, ih hrest]
            simp [references, Segment.text, hkind]

end Segments

end ArtifactAtlas.Bytecode
