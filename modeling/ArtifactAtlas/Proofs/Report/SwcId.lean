import ArtifactAtlas.Proofs.Text.Blank
import ArtifactAtlas.Proofs.Text.Split
import ArtifactAtlas.Report.Filter

/-!
# Spellings of identifiers

An identifier is its number, with a label in whatever case or without one, and with
any blanks around.  All its spellings have one canonical form.  A list of texts may
hold several identifiers in one item; a blank item holds none.
-/

namespace ArtifactAtlas.SwcId

open Text (isBlank isDigitChar trim)

def IsLabel (label : List Char) : Prop :=
  label.map Char.toLower = ['s', 'w', 'c', '-']

instance : DecidablePred IsLabel := fun _ => inferInstanceAs (Decidable (_ = _))

/-- The text is the number with blanks around it, with or without a label. -/
def Spells (number : List Char) (text : String) : Prop :=
  (∀ c ∈ number, isDigitChar c = true) ∧ ∃ before label after : List Char,
    text.toList = before ++ (label ++ number) ++ after ∧
    (∀ c ∈ before, isBlank c = true) ∧ (∀ c ∈ after, isBlank c = true) ∧
    (label = [] ∨ IsLabel label)

/-- Two spellings of one number. -/
def Same (text other : String) : Prop :=
  ∃ number, Spells number text ∧ Spells number other

/-! ## Characters of a spelling -/

/-- The characters that have another one as their lower case. -/
def capitals : Text.CharRanges := [(0x41, 0x5a)]

theorem toLower_of_not_capital {c : Char} (h : capitals.contains c = false) : c.toLower = c := by
  have hrange : ¬ (c.val ≥ 'A'.val ∧ c.val ≤ 'Z'.val) := by
    simpa [capitals, Text.CharRanges.contains, UInt32.le_iff_toNat_le] using h
  exact dif_neg hrange

theorem toLower_of_isBlank {c : Char} (h : isBlank c = true) : c.toLower = c :=
  toLower_of_not_capital (Text.CharRanges.not_contains_of_disjoint (by decide) h)

theorem toLower_of_isDigitChar {c : Char} (h : isDigitChar c = true) : c.toLower = c :=
  toLower_of_not_capital
    (Text.CharRanges.not_contains_of_disjoint (by decide) (Text.contains_of_isDigitChar h))

theorem not_isBlank_of_mem_label {label : List Char} (h : IsLabel label) {c : Char}
    (hc : c ∈ label) : isBlank c = false := by
  have hlower : c.toLower ∈ ['s', 'w', 'c', '-'] := h ▸ List.mem_map_of_mem hc
  by_contra! hblank
  rw [Bool.ne_false_iff] at hblank
  rw [toLower_of_isBlank hblank] at hlower
  have hnone : ['s', 'w', 'c', '-'].any isBlank = false := by decide
  rw [List.any_eq_false] at hnone
  exact hnone c hlower hblank

theorem comma_not_mem_label {label : List Char} (h : IsLabel label) : ',' ∉ label := by
  intro hc
  have hlower : ','.toLower ∈ ['s', 'w', 'c', '-'] := h ▸ List.mem_map_of_mem hc
  revert hlower
  decide

theorem Spells.comma_not_mem {number : List Char} {text : String} (h : Spells number text) :
    ',' ∉ text.toList := by
  obtain ⟨hnumber, before, label, after, htext, hbefore, hafter, hlabel⟩ := h
  have hblank : isBlank ',' = false := by decide
  have hdigit : isDigitChar ',' = false := by decide
  simp only [htext, List.mem_append, not_or]
  refine ⟨⟨fun hc => ?_, fun hc => ?_, fun hc => ?_⟩, fun hc => ?_⟩
  · simp [hbefore _ hc] at hblank
  · rcases hlabel with rfl | hlabel
    · cases hc
    · exact comma_not_mem_label hlabel hc
  · simp [hnumber _ hc] at hdigit
  · simp [hafter _ hc] at hblank

/-! ## The canonical form -/

theorem dropLabel_append {label : List Char} (h : IsLabel label) (rest : List Char) :
    dropLabel (label ++ rest) = rest := by
  obtain ⟨a, b, c, d, rfl⟩ : ∃ a b c d, label = [a, b, c, d] := by
    have hlength : label.length = 4 := by simpa using congrArg List.length h
    exact List.length_eq_four.mp hlength
  exact if_pos h

theorem dropLabel_of_forall {number : List Char} (h : ∀ c ∈ number, isDigitChar c = true) :
    dropLabel number = number := by
  unfold dropLabel
  split
  case h_1 a b c d rest =>
    refine if_neg fun hlabel => ?_
    have ha := h a List.mem_cons_self
    obtain rfl : a = 's' := by simpa [toLower_of_isDigitChar ha] using congrArg List.head? hlabel
    revert ha
    decide
  case h_2 => rfl

theorem canonical_of_spells {number : List Char} {text : String} (h : Spells number text) :
    canonical text = "SWC-" ++ String.ofList number := by
  obtain ⟨hnumber, before, label, after, htext, hbefore, hafter, hlabel⟩ := h
  have hdigits : ∀ c ∈ number, isBlank c = false :=
    fun c hc => Text.not_isBlank_of_isDigitChar (hnumber c hc)
  have hbody : ∀ c ∈ label ++ number, isBlank c = false := by
    intro c hc
    rcases List.mem_append.mp hc with hc | hc
    · rcases hlabel with rfl | hlabel
      · cases hc
      · exact not_isBlank_of_mem_label hlabel hc
    · exact hdigits c hc
  have hdrop : dropLabel (label ++ number) = number := by
    rcases hlabel with rfl | hlabel
    · exact dropLabel_of_forall hnumber
    · exact dropLabel_append hlabel number
  rw [canonical, htext, Text.trim_surrounded hbefore hafter, Text.trim_of_forall hbody, hdrop,
    Text.trim_of_forall hdigits]

theorem Same.canonical_eq {text other : String} (h : Same text other) :
    canonical text = canonical other := by
  obtain ⟨number, htext, hother⟩ := h
  rw [canonical_of_spells htext, canonical_of_spells hother]

theorem canonical_canonical (id : String) : canonical (canonical id) = canonical id := by
  have htight : trim ("SWC-".toList ++ trim (dropLabel (trim id.toList))) =
      "SWC-".toList ++ trim (dropLabel (trim id.toList)) := by
    apply Text.trim_eq_self
    · intro c hc
      obtain rfl : 'S' = c := by simpa using hc
      decide
    · intro c hc
      rw [List.getLast?_append, Option.mem_def, Option.or_eq_some_iff] at hc
      rcases hc with hc | ⟨-, hc⟩
      · exact Text.not_isBlank_getLast_trim hc
      · obtain rfl : '-' = c := by simpa using hc
        decide
  have hlabel : IsLabel "SWC-".toList := by decide
  have hlist : (canonical id).toList =
      "SWC-".toList ++ trim (dropLabel (trim id.toList)) := by
    simp [canonical]
  rw [canonical, hlist, htight, dropLabel_append hlabel, Text.trim_trim]
  rfl

/-! ## Lists of identifiers -/

theorem ofTexts_append (texts others : List String) :
    ofTexts (texts ++ others) = ofTexts texts ++ ofTexts others := by
  simp [ofTexts]

/-- One change to a list of items that keeps the identifiers in it: two items are joined, or
one is spelled in another way.  An item that names nothing cannot be made to name something. -/
inductive ItemStep : List String → List String → Prop
  | joined (front back : List String) (text other : String) :
      ItemStep (front ++ text :: other :: back) (front ++ (text ++ "," ++ other) :: back)
  | respelled (front back : List String) {text other : String} (h : Same text other)
      (hblank : trim text.toList = [] ↔ trim other.toList = []) :
      ItemStep (front ++ text :: back) (front ++ other :: back)

theorem ofTexts_cons (text : String) (rest : List String) :
    ofTexts (text :: rest) = ofTexts [text] ++ ofTexts rest :=
  ofTexts_append [text] rest

theorem ofTexts_joined (text other : String) :
    ofTexts [text ++ "," ++ other] = ofTexts [text, other] := by
  have hsplit : Text.splitString ',' (text ++ "," ++ other) =
      Text.splitString ',' text ++ Text.splitString ',' other := by
    rw [Text.splitString, Text.splitString, Text.splitString, ← List.map_append,
      ← Text.split_append_cons_sep, String.toList_append, String.toList_append]
    simp
  simp [ofTexts, hsplit]

theorem ofTexts_of_comma_not_mem {text : String} (h : ',' ∉ text.toList) :
    ofTexts [text] = if trim text.toList = [] then [] else [canonical text] := by
  have hsplit : Text.splitString ',' text = [text] := by
    rw [Text.splitString, Text.split_of_not_mem h, List.map_singleton, String.ofList_toList]
  by_cases hblank : trim text.toList = [] <;> simp [ofTexts, hsplit, hblank]

theorem ItemStep.ofTexts_eq {texts others : List String} (h : ItemStep texts others) :
    ofTexts texts = ofTexts others := by
  cases h with
  | joined front back text other =>
      rw [ofTexts_append, ofTexts_append, ofTexts_cons (text ++ "," ++ other), ofTexts_joined,
        ← ofTexts_append [text, other]]
      rfl
  | respelled front back h hblank =>
      obtain ⟨number, htext, hother⟩ := h
      rw [ofTexts_append, ofTexts_append, ofTexts_cons, ofTexts_cons _ back,
        ofTexts_of_comma_not_mem htext.comma_not_mem,
        ofTexts_of_comma_not_mem hother.comma_not_mem, canonical_of_spells htext,
        canonical_of_spells hother, if_congr hblank rfl rfl]

end ArtifactAtlas.SwcId
