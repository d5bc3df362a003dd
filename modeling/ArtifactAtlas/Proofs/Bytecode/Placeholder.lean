import ArtifactAtlas.Bytecode
import Mathlib.Data.List.Forall2

/-!
# Placeholders and the scan for them

A placeholder is an opening, a body of fixed length and a closing.  Looking for
placeholders from left to right takes a text apart into whole placeholders and
single characters; `scan_induction` is the induction over the steps of that
scan.
-/

namespace ArtifactAtlas.Bytecode.Placeholder

def opening : Placeholder → List Char
  | hashed => ['_', '_', '$']
  | named => ['_', '_']

def closing : Placeholder → List Char
  | hashed => ['$', '_', '_']
  | named => []

def bodyLength : Placeholder → Nat
  | hashed => 34
  | named => 38

/-- The characters that may stand in a body. -/
def mayHold : Placeholder → Char → Bool
  | hashed, c => c ≠ '\n'
  | named, c => Text.isWordChar c

/-- A text that is one placeholder and nothing else. -/
def Fits (kind : Placeholder) (found : List Char) : Prop :=
  ∃ body, body.length = kind.bodyLength ∧
    (∀ c ∈ body, kind.mayHold c = true) ∧
    found = kind.opening ++ body ++ kind.closing

theorem mayHold_of_mem_opening {kind : Placeholder} {c : Char}
    (h : c ∈ kind.opening) : kind.mayHold c = true := by
  have hall : kind.opening.all kind.mayHold = true := by cases kind <;> decide
  exact List.all_eq_true.mp hall c h

theorem mayHold_of_mem_closing {kind : Placeholder} {c : Char}
    (h : c ∈ kind.closing) : kind.mayHold c = true := by
  have hall : kind.closing.all kind.mayHold = true := by cases kind <;> decide
  exact List.all_eq_true.mp hall c h

theorem zero_not_mem_opening (kind : Placeholder) : '0' ∉ kind.opening := by
  cases kind <;> decide

theorem zero_not_mem_closing (kind : Placeholder) : '0' ∉ kind.closing := by
  cases kind <;> decide

theorem Fits.length {kind : Placeholder} {found : List Char}
    (h : kind.Fits found) : found.length = addressLength := by
  obtain ⟨body, hlength, -, rfl⟩ := h
  simp only [List.length_append, hlength]
  cases kind <;> rfl

theorem Fits.mayHold {kind : Placeholder} {found : List Char}
    (h : kind.Fits found) : ∀ c ∈ found, kind.mayHold c = true := by
  obtain ⟨body, -, hbody, rfl⟩ := h
  intro c hc
  simp only [List.mem_append] at hc
  rcases hc with (hc | hc) | hc
  · exact mayHold_of_mem_opening hc
  · exact hbody c hc
  · exact mayHold_of_mem_closing hc

theorem Fits.exists_eq_underscore_cons {kind : Placeholder} {found : List Char}
    (h : kind.Fits found) : ∃ rest, found = '_' :: rest := by
  obtain ⟨body, -, -, rfl⟩ := h
  cases kind <;> exact ⟨_, rfl⟩

private theorem begins_hashed_iff {text : List Char} :
    hashed.begins text = true ↔
      ∃ body rest, body.length = 34 ∧ (∀ c ∈ body, c ≠ '\n') ∧
        text = '_' :: '_' :: '$' :: (body ++ '$' :: '_' :: '_' :: rest) := by
  constructor
  · intro h
    unfold begins at h
    split at h
    case h_1 rest _ =>
      simp only [Bool.and_eq_true, decide_eq_true_eq, List.all_eq_true] at h
      obtain ⟨⟨hlength, hbody⟩, hclosing⟩ := h
      refine ⟨rest.take 34, rest.drop 37, hlength, ?_, ?_⟩
      · simpa using hbody
      · have hdrop : rest.drop 34 = '$' :: '_' :: '_' :: rest.drop 37 := by
          rw [← List.take_append_drop 3 (rest.drop 34), hclosing]
          simp
        rw [← hdrop, List.take_append_drop]
    case h_2 => contradiction
    case h_3 => contradiction
  · rintro ⟨body, rest, hlength, hbody, rfl⟩
    simp only [begins]
    rw [← hlength, List.take_left, List.drop_left]
    simpa [hlength] using hbody

private theorem begins_named_iff {text : List Char} :
    named.begins text = true ↔
      ∃ body rest, body.length = 38 ∧ (∀ c ∈ body, Text.isWordChar c = true) ∧
        text = '_' :: '_' :: (body ++ rest) := by
  constructor
  · intro h
    unfold begins at h
    split at h
    case h_1 => contradiction
    case h_2 rest _ =>
      simp only [Bool.and_eq_true, decide_eq_true_eq, List.all_eq_true] at h
      exact ⟨rest.take 38, rest.drop 38, h.1, h.2, by rw [List.take_append_drop]⟩
    case h_3 => contradiction
  · rintro ⟨body, rest, hlength, hbody, rfl⟩
    simp only [begins]
    rw [← hlength, List.take_left]
    simpa [hlength] using hbody

theorem begins_iff {kind : Placeholder} {text : List Char} :
    kind.begins text = true ↔
      ∃ found rest, kind.Fits found ∧ text = found ++ rest := by
  cases kind with
  | hashed =>
      rw [begins_hashed_iff]
      constructor
      · rintro ⟨body, rest, hlength, hbody, rfl⟩
        exact ⟨_, rest, ⟨body, hlength, by simpa [mayHold] using hbody, rfl⟩,
          by simp [opening, closing]⟩
      · rintro ⟨_, rest, ⟨body, hlength, hbody, rfl⟩, rfl⟩
        exact ⟨body, rest, hlength, by simpa [mayHold] using hbody,
          by simp [opening, closing]⟩
  | named =>
      rw [begins_named_iff]
      constructor
      · rintro ⟨body, rest, hlength, hbody, rfl⟩
        exact ⟨_, rest, ⟨body, hlength, hbody, rfl⟩, by simp [opening, closing]⟩
      · rintro ⟨_, rest, ⟨body, hlength, hbody, rfl⟩, rfl⟩
        exact ⟨body, rest, hlength, hbody, by simp [opening, closing]⟩

theorem begins_append {kind : Placeholder} {found : List Char}
    (h : kind.Fits found) (rest : List Char) :
    kind.begins (found ++ rest) = true :=
  begins_iff.mpr ⟨found, rest, h, rfl⟩

theorem begins_cons_of_ne {c : Char} (h : c ≠ '_') (kind : Placeholder)
    (rest : List Char) : kind.begins (c :: rest) = false := by
  rw [Bool.eq_false_iff]
  intro hbegins
  obtain ⟨found, after, hfits, heq⟩ := begins_iff.mp hbegins
  obtain ⟨tail, rfl⟩ := hfits.exists_eq_underscore_cons
  exact h (List.cons.inj heq).1

theorem not_occurs_of_length_lt {text : List Char} (h : text.length < addressLength)
    (kind : Placeholder) : kind.occurs text = false := by
  induction text with
  | nil => rfl
  | cons c rest ih =>
      have hrest : rest.length < addressLength :=
        Nat.lt_of_le_of_lt (Nat.le_succ rest.length) h
      have hbegins : kind.begins (c :: rest) = false := by
        rw [Bool.eq_false_iff]
        intro hbegins
        obtain ⟨found, after, hfits, heq⟩ := begins_iff.mp hbegins
        rw [heq, List.length_append, hfits.length] at h
        omega
      rw [occurs, hbegins, ih hrest, Bool.or_false]

/-! ## The scan -/

/--
The scan for placeholders ends, finds one and goes on behind it, or passes over
a character at which none begins.
-/
theorem scan_induction (kind : Placeholder) {motive : List Char → Prop}
    (done : motive [])
    (placeholder : ∀ found rest, kind.Fits found → motive rest →
      motive (found ++ rest))
    (other : ∀ c rest, kind.begins (c :: rest) = false → motive rest →
      motive (c :: rest))
    (text : List Char) : motive text := by
  induction hn : text.length using Nat.strongRecOn generalizing text with
  | ind n ih =>
      cases text with
      | nil => exact done
      | cons c rest =>
          by_cases hbegins : kind.begins (c :: rest) = true
          · obtain ⟨found, after, hfits, heq⟩ := begins_iff.mp hbegins
            rw [heq] at hn ⊢
            have hshorter : after.length < n := by
              rw [← hn, List.length_append, hfits.length]
              simp [addressLength]
            exact placeholder found after hfits (ih _ hshorter after rfl)
          · have hshorter : rest.length < n := by simp [← hn]
            exact other c rest (by simpa using hbegins) (ih _ hshorter rest rfl)

/-! ## Putting zeros in place of placeholders -/

private theorem zeroed_within (kind : Placeholder) (inside rest : List Char) :
    kind.zeroed inside.length (inside ++ rest) =
      List.replicate inside.length '0' ++ kind.zeroed 0 rest := by
  induction inside with
  | nil => rfl
  | cons c inside ih =>
      simp only [List.length_cons, List.cons_append, List.replicate_succ]
      rw [zeroed, if_pos (Nat.succ_pos _), Nat.add_sub_cancel, ih]

theorem zeroed_append {kind : Placeholder} {found : List Char}
    (h : kind.Fits found) (rest : List Char) :
    kind.zeroed 0 (found ++ rest) =
      List.replicate addressLength '0' ++ kind.zeroed 0 rest := by
  have hbegins := begins_append h rest
  have hlength := h.length
  obtain ⟨tail, rfl⟩ := h.exists_eq_underscore_cons
  have htail : tail.length = addressLength - 1 := by
    rw [← hlength, List.length_cons, Nat.add_sub_cancel]
  rw [List.cons_append] at hbegins ⊢
  rw [zeroed, if_neg (Nat.lt_irrefl 0), if_pos hbegins, ← htail, zeroed_within]
  simp [htail, addressLength, List.replicate_succ]

theorem zeroed_cons {kind : Placeholder} {c : Char} {rest : List Char}
    (h : kind.begins (c :: rest) = false) :
    kind.zeroed 0 (c :: rest) = c :: kind.zeroed 0 rest := by
  simp [zeroed, h]

theorem occurs_replicate_zero_append (kind : Placeholder) (n : Nat)
    (rest : List Char) :
    kind.occurs (List.replicate n '0' ++ rest) = kind.occurs rest := by
  induction n with
  | zero => rfl
  | succ n ih =>
      rw [List.replicate_succ, List.cons_append, occurs,
        begins_cons_of_ne (by decide), ih, Bool.false_or]

/-! ## Listing placeholders -/

/-- The bytes that a text takes. -/
def bytes : List Char → Nat
  | [] => 0
  | c :: rest => c.utf8Size + bytes rest

theorem bytes_append (front back : List Char) :
    bytes (front ++ back) = bytes front + bytes back := by
  induction front with
  | nil => simp [bytes]
  | cons c front ih => rw [List.cons_append, bytes, bytes, ih, Nat.add_assoc]

private theorem references_within (kind : Placeholder) (position : Nat)
    (inside rest : List Char) :
    kind.references position inside.length (inside ++ rest) =
      kind.references (position + bytes inside) 0 rest := by
  induction inside generalizing position with
  | nil => rfl
  | cons c inside ih =>
      simp only [List.length_cons, List.cons_append, bytes]
      rw [references, if_pos (Nat.succ_pos _), Nat.add_sub_cancel, ih, Nat.add_assoc]

theorem references_append {kind : Placeholder} {found : List Char}
    (h : kind.Fits found) (position : Nat) (rest : List Char) :
    kind.references position 0 (found ++ rest) =
      ⟨position, String.ofList found⟩ ::
        kind.references (position + bytes found) 0 rest := by
  have hbegins := begins_append h rest
  have htake : (found ++ rest).take addressLength = found := by
    rw [← h.length, List.take_left]
  have hlength := h.length
  obtain ⟨tail, rfl⟩ := h.exists_eq_underscore_cons
  have htail : addressLength - 1 = tail.length := by
    rw [← hlength, List.length_cons, Nat.add_sub_cancel]
  rw [List.cons_append] at hbegins htake ⊢
  rw [references, if_neg (Nat.lt_irrefl 0), if_pos hbegins, htake, htail,
    references_within]
  simp only [bytes, Nat.add_assoc]

theorem references_cons {kind : Placeholder} {c : Char} {rest : List Char}
    (h : kind.begins (c :: rest) = false) (position : Nat) :
    kind.references position 0 (c :: rest) =
      kind.references (position + c.utf8Size) 0 rest := by
  simp [references, h]

/-! ## Texts that are passed over -/

/-- No placeholder of the kind begins within a text that is followed by `after`. -/
def Silent (kind : Placeholder) (after : List Char) : List Char → Prop
  | [] => True
  | c :: rest => kind.begins (c :: (rest ++ after)) = false ∧ kind.Silent after rest

theorem Silent.zeroed_append {kind : Placeholder} {text after : List Char}
    (h : kind.Silent after text) :
    kind.zeroed 0 (text ++ after) = text ++ kind.zeroed 0 after := by
  induction text with
  | nil => rfl
  | cons c rest ih =>
      rw [List.cons_append, zeroed_cons h.1, ih h.2, List.cons_append]

theorem Silent.references_append {kind : Placeholder} {text after : List Char}
    (h : kind.Silent after text) (position : Nat) :
    kind.references position 0 (text ++ after) =
      kind.references (position + bytes text) 0 after := by
  induction text generalizing position with
  | nil => rfl
  | cons c rest ih =>
      rw [List.cons_append, references_cons h.1, ih h.2]
      simp only [bytes, Nat.add_assoc]

theorem silent_append {kind : Placeholder} {front back after : List Char} :
    kind.Silent after (front ++ back) ↔
      kind.Silent (back ++ after) front ∧ kind.Silent after back := by
  induction front with
  | nil => simp [Silent]
  | cons c front ih => simp [Silent, ih, and_assoc]

theorem silent_of_underscore_not_mem {text : List Char} (h : '_' ∉ text)
    (kind : Placeholder) (after : List Char) : kind.Silent after text := by
  induction text with
  | nil => trivial
  | cons c rest ih =>
      simp only [List.mem_cons, not_or] at h
      exact ⟨begins_cons_of_ne (Ne.symm h.1) kind _, ih h.2⟩

end ArtifactAtlas.Bytecode.Placeholder
