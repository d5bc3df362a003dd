import ArtifactAtlas.Proofs.Bytecode.Spans
import ArtifactAtlas.Proofs.Bytecode.Unlinked

/-!
# Which placeholders are listed

The two kinds are looked for one after the other in the same unlinked text, so
the list is right only as long as no named placeholder seems to begin within a
hashed one.  One can: the underscores that close a hashed placeholder read as an
opening when enough word characters come after them.
-/

namespace ArtifactAtlas.Bytecode

/-! ## Hashed placeholders within named ones -/

theorem Placeholder.getElem?_two_of_begins_hashed {text : List Char}
    (h : hashed.begins text = true) : text[2]? = some '$' := by
  obtain ⟨found, rest, ⟨body, -, -, rfl⟩, rfl⟩ := begins_iff.mp h
  rfl

theorem Placeholder.silent_hashed {text after : List Char} (htext : '$' ∉ text)
    (hafter : ∀ k < 2, after[k]? ≠ some '$') : hashed.Silent after text := by
  induction text with
  | nil => trivial
  | cons c rest ih =>
      simp only [List.mem_cons, not_or] at htext
      refine ⟨?_, ih htext.2⟩
      rw [Bool.eq_false_iff]
      intro hbegins
      have hdollar := getElem?_two_of_begins_hashed hbegins
      rw [← List.cons_append, List.getElem?_append] at hdollar
      split at hdollar
      · have hmem := List.mem_of_getElem? hdollar
        simp_all
      · exact hafter _ (by rw [List.length_cons]; omega) hdollar

/-- No dollar sign is the first or the second character of unlinked code. -/
theorem Segments.getElem?_text_ne_dollar (segments : Segments) :
    ∀ k < 2, (text segments)[k]? ≠ some '$' := by
  induction segments with
  | nil => simp [text]
  | cons segment rest ih =>
      intro k hk
      rw [text_cons]
      cases segment with
      | code digits isHex =>
          rw [Segment.text, List.getElem?_append]
          split
          · intro hdollar
            have hhex := isHex '$' (List.mem_of_getElem? hdollar)
            exact absurd hhex (by decide)
          · exact ih _ (by omega)
      | placeholder kind body length written =>
          have hstart : ∃ more, Segment.text (.placeholder kind body length written) =
              '_' :: '_' :: more := by
            cases kind <;> exact ⟨_, rfl⟩
          obtain ⟨more, hmore⟩ := hstart
          rw [hmore]
          obtain rfl | rfl : k = 0 ∨ k = 1 := by omega
          · simp
          · simp

theorem Segments.apart_hashed (segments : Segments) : Apart .hashed segments := by
  induction segments with
  | nil => trivial
  | cons segment rest ih =>
      cases segment with
      | code digits isHex => exact ih
      | placeholder kind body length written =>
          refine ⟨fun hkind => ?_, ih⟩
          cases kind with
          | hashed => contradiction
          | named =>
              have hbody : '$' ∉ body := dollar_not_mem_of_isNameChar written
              apply Placeholder.silent_hashed
              · simpa [Placeholder.opening, Placeholder.closing] using hbody
              · exact getElem?_text_ne_dollar rest

/-! ## Named placeholders within hashed ones -/

/-- Whether a text begins with enough word characters for the body of a named placeholder. -/
def goesOnLikeName (text : List Char) : Bool :=
  (text.take 38).length = 38 && (text.take 38).all Text.isWordChar

theorem begins_named_cons_cons (rest : List Char) :
    Placeholder.named.begins ('_' :: '_' :: rest) = goesOnLikeName rest := rfl

theorem goesOnLikeName_underscore_cons {rest : List Char}
    (h : goesOnLikeName rest = true) : goesOnLikeName ('_' :: rest) = true := by
  simp only [goesOnLikeName, Bool.and_eq_true, decide_eq_true_eq, List.all_eq_true,
    List.length_take] at h ⊢
  refine ⟨by simp; omega, ?_⟩
  intro c hc
  rw [List.take_succ_cons] at hc
  rcases List.mem_cons.mp hc with rfl | hc
  · decide
  · exact h.2 c (List.take_subset_take_left rest (by decide) hc)

theorem Placeholder.not_begins_named_append {c : Char}
    (hc : Text.isWordChar c = false) (front back : List Char)
    (h : front.length < addressLength) :
    named.begins (front ++ c :: back) = false := by
  rw [Bool.eq_false_iff]
  intro hbegins
  obtain ⟨found, rest, hfits, heq⟩ := begins_iff.mp hbegins
  have hlt : front.length < found.length := by rwa [hfits.length]
  have hfound : (found ++ rest)[front.length]? = some c := by
    rw [← heq]
    simp
  rw [List.getElem?_append_left hlt] at hfound
  have hword : Text.isWordChar c = true :=
    hfits.mayHold c (List.mem_of_getElem? hfound)
  rw [hc] at hword
  contradiction

theorem Placeholder.silent_named {body after : List Char} (hbody : '_' ∉ body)
    (hafter : goesOnLikeName after = false) :
    named.Silent after (hashed.opening ++ body ++ hashed.closing) := by
  have hclosing : named.begins ('_' :: after) = false := by
    rw [Bool.eq_false_iff] at hafter ⊢
    intro hbegins
    obtain ⟨found, rest, ⟨name, -, -, rfl⟩, heq⟩ := begins_iff.mp hbegins
    have hunderscore : after = '_' :: (name ++ rest) := by
      simpa [opening, closing] using heq
    rw [hunderscore, begins_named_cons_cons] at hbegins
    rw [hunderscore] at hafter
    exact hafter (goesOnLikeName_underscore_cons hbegins)
  have hdollar : Text.isWordChar '$' = false := by decide
  rw [silent_append, silent_append]
  refine ⟨⟨?_, silent_of_underscore_not_mem hbody _ _⟩, ?_⟩
  · exact ⟨not_begins_named_append hdollar ['_', '_'] _ (by decide),
      not_begins_named_append hdollar ['_'] _ (by decide),
      begins_cons_of_ne (by decide) _ _, trivial⟩
  · exact ⟨begins_cons_of_ne (by decide) _ _, hafter, hclosing, trivial⟩

namespace Segment

theorem length_placeholder {kind : Placeholder} {body : List Char}
    (length : body.length = kind.bodyLength)
    (written : ∀ c ∈ body, kind.writes c = true) :
    (placeholder kind body length written).text.length = addressLength :=
  (Placeholder.fits_of_writes length written).length

/-- The kind of a placeholder. -/
def kind? : Segment → Option Placeholder
  | code _ _ => none
  | placeholder kind _ _ _ => some kind

end Segment

namespace Segments

/-- No hashed placeholder is followed by enough word characters for the body of a named one. -/
def Separated (segments : Segments) : Prop :=
  ∀ before segment after, segments = before ++ segment :: after →
    segment.kind? = some .hashed → goesOnLikeName (text after) = false

theorem Separated.tail {segment : Segment} {rest : Segments}
    (h : Separated (segment :: rest)) : Separated rest := by
  intro before other after heq hkind
  exact h (segment :: before) other after (by rw [heq, List.cons_append]) hkind

theorem Separated.apart_named {segments : Segments} (h : Separated segments) :
    Apart .named segments := by
  induction segments with
  | nil => trivial
  | cons segment rest ih =>
      have hrest := ih h.tail
      cases segment with
      | code digits isHex => exact hrest
      | placeholder kind body length written =>
          refine ⟨fun hkind => ?_, hrest⟩
          cases kind with
          | named => contradiction
          | hashed =>
              exact Placeholder.silent_named (underscore_not_mem_of_isHexDigit written)
                (h [] _ rest rfl rfl)

/-- Once the hashed placeholders are zeros there are none for a named one to begin in. -/
theorem apart_named_linkIf_hashed (segments : Segments) :
    Apart .named (segments.linkIf (· = .hashed)) := by
  induction segments with
  | nil => trivial
  | cons segment rest ih =>
      cases segment with
      | code digits isHex => exact ih
      | placeholder kind body length written =>
          cases kind with
          | hashed => exact ih
          | named => exact ⟨fun hkind => absurd rfl hkind, ih⟩

theorem linkIf_named_linkIf_hashed (segments : Segments) :
    (segments.linkIf (· = .hashed)).linkIf (· = .named) =
      segments.linkIf fun _ => true := by
  induction segments with
  | nil => rfl
  | cons segment rest ih =>
      simp only [linkIf, List.map_cons] at ih ⊢
      rw [ih]
      cases segment with
      | code digits isHex => rfl
      | placeholder kind body length written => cases kind <;> rfl

/-! ## Positions -/

theorem le_start_of_mem_references {chosen : Placeholder → Bool}
    {position : Nat} {segments : Segments} {reference : LinkReference}
    (h : reference ∈ segments.references chosen position) :
    position ≤ reference.start := by
  induction segments generalizing position with
  | nil => simp [references] at h
  | cons segment rest ih =>
      have hrest : reference ∈ references chosen (position + segment.text.length) rest →
          position ≤ reference.start := fun hmem => by
        have hle := ih hmem
        omega
      cases segment with
      | code digits isHex => exact hrest h
      | placeholder kind body length written =>
          simp only [references] at h
          split at h
          · rcases List.mem_cons.mp h with rfl | h
            · exact Nat.le_refl _
            · exact hrest h
          · exact hrest h

theorem references_append (chosen : Placeholder → Bool) (position : Nat)
    (before after : Segments) :
    references chosen position (before ++ after) =
      references chosen position before ++
        references chosen (position + (text before).length) after := by
  induction before generalizing position with
  | nil => simp [references, text]
  | cons segment before ih =>
      cases segment with
      | code digits isHex =>
          simp only [List.cons_append, references, ih, text_cons, List.length_append,
            Nat.add_assoc]
      | placeholder kind body length written =>
          simp only [List.cons_append, references, ih, text_cons, List.length_append,
            Nat.add_assoc]
          split <;> rfl

end Segments

theorem merge_cons_left {reference : LinkReference} {first second : List LinkReference}
    (h : ∀ other ∈ second, reference.start ≤ other.start) :
    (reference :: first).merge second (fun a b => a.start ≤ b.start) =
      reference :: first.merge second fun a b => a.start ≤ b.start := by
  cases second with
  | nil => simp
  | cons other second =>
      exact List.cons_merge_cons_pos _ _ _ (by simpa using h other List.mem_cons_self)

theorem merge_cons_right {reference : LinkReference} {first second : List LinkReference}
    (h : ∀ other ∈ first, reference.start < other.start) :
    first.merge (reference :: second) (fun a b => a.start ≤ b.start) =
      reference :: first.merge second fun a b => a.start ≤ b.start := by
  cases first with
  | nil => simp
  | cons other first =>
      exact List.cons_merge_cons_neg _ _ _ (by simpa using h other List.mem_cons_self)

theorem Segments.merge_references (position : Nat) (segments : Segments) :
    (segments.references (· = .hashed) position).merge
      (segments.references (· = .named) position) (fun a b => a.start ≤ b.start) =
        segments.references (fun _ => true) position := by
  induction segments generalizing position with
  | nil => simp [references]
  | cons segment rest ih =>
      cases segment with
      | code digits isHex => exact ih _
      | placeholder kind body length written =>
          have hlength := Segment.length_placeholder length written
          have hlater : ∀ (chosen : Placeholder → Bool) (reference : LinkReference),
              reference ∈ references chosen (position + addressLength) rest →
                position < reference.start := by
            intro chosen reference hmem
            have hle := le_start_of_mem_references hmem
            simp only [addressLength] at hle
            omega
          simp only [references, hlength]
          cases kind with
          | hashed =>
              rw [if_pos (by decide), if_neg (by decide), if_pos trivial,
                merge_cons_left fun other hmem => Nat.le_of_lt (hlater _ other hmem), ih]
          | named =>
              rw [if_neg (by decide), if_pos (by decide), if_pos trivial,
                merge_cons_right (hlater _), ih]

/-! ## Whole codes -/

namespace Unlinked

theorem underscore_not_mem_lead (code : Unlinked) : '_' ∉ code.lead := by
  rw [lead]
  split <;> decide

theorem silent_lead (code : Unlinked) (kind : Placeholder) (after : List Char) :
    kind.Silent after code.lead :=
  Placeholder.silent_of_underscore_not_mem code.underscore_not_mem_lead kind after

theorem bytes_lead (code : Unlinked) :
    Placeholder.bytes code.lead = code.lead.length := by
  rw [lead]
  split <;> decide

theorem linkToZero_text (code : Unlinked) : linkToZero code.text = code.linked := by
  rw [linkToZero, text, String.toList_ofList, (code.silent_lead .hashed _).zeroed_append,
    Segments.zeroed_text (Segments.apart_hashed code.segments),
    (code.silent_lead .named _).zeroed_append,
    Segments.zeroed_text (Segments.apart_named_linkIf_hashed code.segments),
    Segments.linkIf_named_linkIf_hashed, linked]

theorem references_hashed_text (code : Unlinked) :
    Placeholder.hashed.references 0 0 code.text.toList =
      code.segments.references (· = .hashed) code.lead.length := by
  rw [text, String.toList_ofList, (code.silent_lead .hashed _).references_append,
    Segments.references_text (Segments.apart_hashed code.segments), bytes_lead, Nat.zero_add]

theorem linkReferences_text {code : Unlinked} (h : code.segments.Separated) :
    linkReferences code.text = code.placeholders := by
  have hnamed : Placeholder.named.references 0 0 code.text.toList =
      code.segments.references (· = .named) code.lead.length := by
    rw [text, String.toList_ofList, (code.silent_lead .named _).references_append,
      Segments.references_text h.apart_named, bytes_lead, Nat.zero_add]
  rw [linkReferences, references_hashed_text, hnamed, Segments.merge_references,
    placeholders]

end Unlinked

theorem Segments.inOrder_references (chosen : Placeholder → Bool) (position : Nat)
    (segments : Segments) :
    LinkReference.InOrder (segments.references chosen position) := by
  induction segments generalizing position with
  | nil => exact List.Pairwise.nil
  | cons segment rest ih =>
      cases segment with
      | code digits isHex => exact ih _
      | placeholder kind body length written =>
          simp only [references]
          split
          · refine List.pairwise_cons.mpr ⟨fun other hmem => ?_, ih _⟩
            have hle := le_start_of_mem_references hmem
            rwa [LinkReference.stop_mk_ofList, Segment.bytes_text]
          · exact ih _

/-- A scan for named placeholders that comes to a character outside names starts anew behind it. -/
theorem Placeholder.exists_references_eq_append {c : Char}
    (hc : Text.isWordChar c = false) (position inside : Nat) (text rest : List Char)
    (hinside : inside ≤ text.length) :
    ∃ found, named.references position inside (text ++ c :: rest) =
      found ++ named.references (position + bytes text + c.utf8Size) 0 rest := by
  induction text generalizing position inside with
  | nil =>
      have hne : c ≠ '_' := by
        rintro rfl
        exact absurd hc (by decide)
      obtain rfl : inside = 0 := Nat.le_zero.mp hinside
      exact ⟨[], by simp [references_cons (begins_cons_of_ne hne named rest), bytes]⟩
  | cons d text ih =>
      have hbytes : position + bytes (d :: text) = position + d.utf8Size + bytes text := by
        simp only [bytes, Nat.add_assoc]
      rw [List.length_cons] at hinside
      rw [List.cons_append, references, hbytes]
      split
      · exact ih _ (inside - 1) (by omega)
      split
      case isTrue hbegins =>
        -- the placeholder ends before `c`, since all its characters are word characters
        have hlength : addressLength - 1 ≤ text.length := by
          by_contra hlt
          have hshort : (d :: text).length < addressLength := by
            simp only [addressLength, List.length_cons] at hlt ⊢
            omega
          rw [← List.cons_append, not_begins_named_append hc _ _ hshort] at hbegins
          contradiction
        obtain ⟨found, hfound⟩ := ih (position + d.utf8Size) _ hlength
        exact ⟨_ :: found, by rw [hfound]; rfl⟩
      case isFalse => exact ih _ 0 (Nat.zero_le _)

theorem Placeholder.exists_references_eq_cons {kind : Placeholder} {text : List Char}
    (h : kind.begins text = true) (position : Nat) :
    ∃ placeholder rest,
      kind.references position 0 text = ⟨position, placeholder⟩ :: rest := by
  obtain ⟨found, after, hfits, rfl⟩ := begins_iff.mp h
  exact ⟨_, _, references_append hfits position after⟩

/-- The closing underscores of a hashed placeholder are listed as a named one. -/
theorem Unlinked.exists_named_in_hashed {code : Unlinked} {before after : Segments}
    {body : List Char} {length : body.length = Placeholder.hashed.bodyLength}
    {written : ∀ c ∈ body, Placeholder.hashed.writes c = true}
    (heq : code.segments = before ++ .placeholder .hashed body length written :: after)
    (hgoes : goesOnLikeName (Segments.text after) = true) :
    ∃ reference ∈ Placeholder.named.references 0 0 code.text.toList,
      reference.start = code.lead.length + (Segments.text before).length + 38 := by
  let front := code.lead ++ Segments.text before ++ (['_', '_', '$'] ++ body)
  have htext : code.text.toList = front ++ '$' :: '_' :: '_' :: Segments.text after := by
    rw [text, String.toList_ofList, heq]
    simp [front, Segments.text, Segment.text, Placeholder.opening, Placeholder.closing]
  have hposition : 0 + Placeholder.bytes front + '$'.utf8Size =
      code.lead.length + (Segments.text before).length + 38 := by
    have hbody : Placeholder.bytes body = 34 := by
      rw [bytes_eq_length fun c hc =>
        toNat_lt_of_isNameChar (isNameChar_of_isHexDigit (written c hc)), length]
      rfl
    have hopening : Placeholder.bytes ['_', '_', '$'] = 3 := rfl
    have hdollar : '$'.utf8Size = 1 := rfl
    simp only [front, Placeholder.bytes_append, bytes_lead, Segments.bytes_text, hopening,
      hbody, hdollar]
    omega
  obtain ⟨found, hfound⟩ := Placeholder.exists_references_eq_append (c := '$') (by decide)
    0 0 front ('_' :: '_' :: Segments.text after) (Nat.zero_le _)
  have hbegins : Placeholder.named.begins ('_' :: '_' :: Segments.text after) = true :=
    hgoes
  obtain ⟨placeholder, rest, hrest⟩ := Placeholder.exists_references_eq_cons hbegins
    (code.lead.length + (Segments.text before).length + 38)
  refine ⟨⟨_, placeholder⟩, ?_, rfl⟩
  rw [htext, hfound, hposition, hrest]
  simp

theorem Unlinked.separated_of_inOrder {code : Unlinked}
    (h : LinkReference.InOrder (linkReferences code.text)) :
    code.segments.Separated := by
  intro before segment after heq hkind
  rw [Bool.eq_false_iff]
  intro hgoes
  cases segment with
  | code digits isHex => contradiction
  | placeholder kind body length written =>
      obtain rfl : kind = .hashed := Option.some.inj hkind
      let hashed : LinkReference := ⟨code.lead.length + (Segments.text before).length,
        String.ofList (Segment.placeholder .hashed body length written).text⟩
      have hhashed : hashed ∈ linkReferences code.text := by
        rw [linkReferences, references_hashed_text, heq, Segments.references_append]
        apply List.mem_merge_left
        simp [Segments.references, hashed]
      have hstop : hashed.stop = hashed.start + addressLength := by
        rw [LinkReference.stop_mk_ofList, Segment.bytes_text, Segment.length_placeholder]
      obtain ⟨named, hnamed, hstart⟩ := exists_named_in_hashed heq hgoes
      have hlater : named.start = hashed.start + 38 := hstart
      have hle : named.start ≤ named.stop := Nat.le_add_right _ _
      have hne : hashed ≠ named := by
        intro hsame
        rw [hsame] at hlater
        omega
      have happart := h.apart hhashed (List.mem_merge_right _ hnamed) hne
      rw [hstop, addressLength] at happart
      omega

/-! ## What linking writes over -/

theorem Segments.references_placeholder (position : Nat) {kind : Placeholder}
    {body : List Char} (length : body.length = kind.bodyLength)
    (written : ∀ c ∈ body, kind.writes c = true) (rest : Segments) :
    references (fun _ => true) position (.placeholder kind body length written :: rest) =
      ⟨position, String.ofList (Segment.placeholder kind body length written).text⟩ ::
        references (fun _ => true) (position + addressLength) rest := by
  simp [references, Segment.length_placeholder]

theorem Segments.text_linkIf_placeholder {kind : Placeholder} {body : List Char}
    (length : body.length = kind.bodyLength)
    (written : ∀ c ∈ body, kind.writes c = true) (rest : Segments) :
    text (linkIf (fun _ => true) (.placeholder kind body length written :: rest)) =
      List.replicate addressLength '0' ++ text (linkIf (fun _ => true) rest) := by
  simp [linkIf, Segment.linkIf, Segment.text]

/-- The references of the segments zero their own placeholders, whatever lies before them. -/
theorem Segments.zerosOver_text (earlier : List LinkReference) (position : Nat)
    (segments : Segments) (hearlier : ∀ reference ∈ earlier, reference.stop ≤ position) :
    zerosOver (earlier ++ segments.references (fun _ => true) position) position
      (text segments) = text (segments.linkIf fun _ => true) := by
  induction segments generalizing earlier position with
  | nil => rfl
  | cons segment rest ih =>
      have hbytes := segment.bytes_text
      cases segment with
      | code digits isHex =>
          rw [Segment.text] at hbytes
          have hfront : zerosOver (earlier ++ references (fun _ => true)
              (position + digits.length) rest) position digits = digits := by
            apply zerosOver_eq_self
            intro reference hmem
            rcases List.mem_append.mp hmem with hmem | hmem
            · exact .inl (hearlier reference hmem)
            · rw [hbytes]
              exact .inr (le_start_of_mem_references hmem)
          have hback := ih earlier (position + digits.length) fun reference hmem =>
            Nat.le_trans (hearlier reference hmem) (Nat.le_add_right _ _)
          simp only [text_cons, references, Segment.text]
          rw [zerosOver_append, hfront, hbytes, hback]
          simp [linkIf, Segment.linkIf, Segment.text]
      | placeholder kind body length written =>
          have hlength := Segment.length_placeholder length written
          rw [hlength] at hbytes
          rw [text_cons, references_placeholder, text_linkIf_placeholder, zerosOver_append,
            hbytes]
          congr 1
          · rw [← hlength]
            apply zerosOver_eq_replicate (List.mem_append_right _ List.mem_cons_self)
            · exact Nat.le_refl _
            · exact Nat.le_of_eq (LinkReference.stop_mk_ofList _ _).symm
          · rw [List.append_cons]
            apply ih
            intro reference hmem
            rcases List.mem_append.mp hmem with hmem | hmem
            · exact Nat.le_trans (hearlier reference hmem) (Nat.le_add_right _ _)
            · exact Nat.le_of_eq (by
                rw [List.mem_singleton.mp hmem, LinkReference.stop_mk_ofList, hbytes])

theorem Unlinked.linkToZero_text_eq_zerosOver (code : Unlinked) :
    linkToZero code.text =
      String.ofList (zerosOver code.placeholders 0 code.text.toList) := by
  have hlead : zerosOver code.placeholders 0 code.lead = code.lead := by
    apply zerosOver_eq_self
    intro reference hmem
    rw [bytes_lead, Nat.zero_add]
    exact .inr (Segments.le_start_of_mem_references hmem)
  have hsegments := Segments.zerosOver_text [] code.lead.length code.segments (by simp)
  rw [List.nil_append] at hsegments
  rw [linkToZero_text, linked, text, String.toList_ofList, zerosOver_append, hlead,
    bytes_lead, Nat.zero_add, placeholders, hsegments]

/-! ## Main results -/

/--
Linking writes over the placeholders of an unlinked code and over nothing else.
They are listed as such, and what is listed does not overlap, exactly when no
hashed placeholder has enough word characters after it for its closing
underscores to be taken for the opening of a named one.
-/
theorem linkReferences_eq_placeholders_iff_separated (code : Unlinked) :
    linkToZero code.text =
      String.ofList (zerosOver code.placeholders 0 code.text.toList) ∧
    LinkReference.InOrder code.placeholders ∧
    (linkReferences code.text = code.placeholders ↔ code.segments.Separated) ∧
    (LinkReference.InOrder (linkReferences code.text) ↔ code.segments.Separated) := by
  have hplaceholders : LinkReference.InOrder code.placeholders :=
    Segments.inOrder_references _ _ code.segments
  refine ⟨code.linkToZero_text_eq_zerosOver, hplaceholders, ⟨?_, ?_⟩, ⟨?_, ?_⟩⟩
  · intro h
    exact Unlinked.separated_of_inOrder (h ▸ hplaceholders)
  · exact Unlinked.linkReferences_text
  · exact Unlinked.separated_of_inOrder
  · intro h
    rw [Unlinked.linkReferences_text h]
    exact hplaceholders

/-- A hashed placeholder with 38 digits after it. -/
def hashedBeforeDigits : Unlinked where
  hasLead := false
  segments := [
    .placeholder .hashed (List.replicate 34 'a') rfl fun c hc => by
      rw [List.eq_of_mem_replicate hc]; rfl,
    .code (List.replicate 38 'f') fun c hc => by
      rw [List.eq_of_mem_replicate hc]; rfl]

/-- Not all that is listed is a placeholder, and the list overlaps itself. -/
theorem hashedBeforeDigits_lists_too_much :
    hashedBeforeDigits.text =
      "__$aaaaaaaaaaaaaaaaaaaaaaaaaaaaaaaaaa$__ffffffffffffffffffffffffffffffffffffff" ∧
    hashedBeforeDigits.placeholders =
      [⟨0, "__$aaaaaaaaaaaaaaaaaaaaaaaaaaaaaaaaaa$__"⟩] ∧
    linkReferences hashedBeforeDigits.text =
      [⟨0, "__$aaaaaaaaaaaaaaaaaaaaaaaaaaaaaaaaaa$__"⟩,
        ⟨38, "__ffffffffffffffffffffffffffffffffffffff"⟩] ∧
    linkReferences hashedBeforeDigits.text ≠ hashedBeforeDigits.placeholders ∧
    ¬ LinkReference.InOrder (linkReferences hashedBeforeDigits.text) := by
  have hhashed : Placeholder.hashed.references 0 0 hashedBeforeDigits.text.toList =
      [⟨0, "__$aaaaaaaaaaaaaaaaaaaaaaaaaaaaaaaaaa$__"⟩] := by
    decide
  have hnamed : Placeholder.named.references 0 0 hashedBeforeDigits.text.toList =
      [⟨38, "__ffffffffffffffffffffffffffffffffffffff"⟩] := by
    decide
  have hlisted : linkReferences hashedBeforeDigits.text =
      [⟨0, "__$aaaaaaaaaaaaaaaaaaaaaaaaaaaaaaaaaa$__"⟩,
        ⟨38, "__ffffffffffffffffffffffffffffffffffffff"⟩] := by
    rw [linkReferences, hhashed, hnamed, merge_cons_left (by simp), List.nil_merge]
  refine ⟨by decide, by decide, hlisted, ?_, ?_⟩
  · rw [hlisted]
    decide
  · rw [hlisted, LinkReference.InOrder]
    decide

end ArtifactAtlas.Bytecode
