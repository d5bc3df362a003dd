import ArtifactAtlas.Text.Numeral

/-!
# Reading written numerals

A machine word is read back from the numeral it is written as.  The reader also
takes numerals that are never written, such as `+1` and `01`, so there is no law
in the other direction; but none of those is shorter than the written one.
-/

namespace ArtifactAtlas.Numeral

/-! ## What numerals are made of -/

@[simp] theorem ofNat_ne_nil (n : Nat) : ofNat n ≠ [] :=
  Nat.toDigits_ne_nil

@[simp] theorem ofInt_ne_nil (n : Int) : ofInt n ≠ [] := by
  cases n <;> simp [ofInt]

theorem isDigit_of_mem_ofNat {c : Char} {n : Nat} (h : c ∈ ofNat n) :
    c.isDigit = true :=
  Nat.isDigit_of_mem_toDigits (by decide) (by decide) h

theorem isDigit_or_minus_of_mem_ofInt {c : Char} {n : Int} (h : c ∈ ofInt n) :
    c.isDigit = true ∨ c = '-' := by
  cases n with
  | ofNat n => exact .inl (isDigit_of_mem_ofNat h)
  | negSucc n =>
      rcases List.mem_cons.mp h with rfl | h
      · exact .inr rfl
      · exact .inl (isDigit_of_mem_ofNat h)

/-! ## Digits -/

theorem valueFrom_eq_ofDigitChars {text : List Char}
    (h : ∀ c ∈ text, c.isDigit = true) (acc : Nat) :
    valueFrom acc text = some (Nat.ofDigitChars 10 text acc) := by
  induction text generalizing acc with
  | nil => simp [valueFrom]
  | cons c rest ih =>
      have hc : digit? c = some (c.toNat - '0'.toNat) :=
        if_pos (h c List.mem_cons_self)
      have hrest : ∀ d ∈ rest, d.isDigit = true := fun d hd =>
        h d (List.mem_cons_of_mem _ hd)
      rw [valueFrom, hc, Option.bind_some, ih hrest, Nat.ofDigitChars_cons,
        Nat.mul_comm acc 10]

@[simp] theorem digits?_ofNat (n : Nat) : digits? (ofNat n) = some n := by
  have hvalue : valueFrom 0 (ofNat n) = some n := by
    rw [valueFrom_eq_ofDigitChars fun c hc => isDigit_of_mem_ofNat hc, ofNat,
      Nat.ofDigitChars_ten_toDigits]
  cases htext : ofNat n with
  | nil => exact absurd htext (ofNat_ne_nil n)
  | cons c rest => rwa [htext] at hvalue

/-- A written numeral begins with a digit, so no sign is taken off it. -/
theorem exists_ofNat_eq_cons (n : Nat) :
    ∃ c rest, ofNat n = c :: rest ∧ c.isDigit = true := by
  cases htext : ofNat n with
  | nil => exact absurd htext (ofNat_ne_nil n)
  | cons c rest =>
      exact ⟨c, rest, rfl, isDigit_of_mem_ofNat (n := n) (by simp [htext])⟩

@[simp] theorem natural?_ofNat (n : Nat) : natural? (ofNat n) = some n := by
  obtain ⟨c, rest, htext, hc⟩ := exists_ofNat_eq_cons n
  have hplus : c ≠ '+' := by rintro rfl; simp at hc
  rw [← digits?_ofNat n, htext]
  unfold natural?
  split
  · simp_all
  · rfl

@[simp] theorem signed?_ofInt (n : Int) : signed? (ofInt n) = some n := by
  cases n with
  | ofNat n =>
      obtain ⟨c, rest, htext, hc⟩ := exists_ofNat_eq_cons n
      have hminus : c ≠ '-' := by rintro rfl; simp at hc
      have hread : (natural? (c :: rest)).map Int.ofNat = some (Int.ofNat n) := by
        rw [← htext, natural?_ofNat, Option.map_some]
      rw [ofInt, htext, ← hread]
      unfold signed?
      split
      · simp_all
      · rfl
  | negSucc n => simp [ofInt, signed?, Int.negSucc_eq]

/-! ## Machine words -/

theorem word?_ofNat (word : UInt64) : word? (ofNat word.toNat) = some word := by
  have hlt : word.toNat < wordSize := word.toNat_lt
  simp [word?, hlt]

theorem signedWord?_ofInt (word : Int64) :
    signedWord? (ofInt word.toInt) = some word := by
  have hle : -(signedLimit : Int) ≤ word.toInt := word.le_toInt
  have hlt : word.toInt < (signedLimit : Int) := word.toInt_lt
  simp [signedWord?, hle, hlt]

/-! ## The shortest numeral -/

theorem lt_ten_of_digit? {c : Char} {d : Nat} (h : digit? c = some d) : d < 10 := by
  rw [digit?] at h
  split at h
  case isTrue hdigit =>
    rw [Char.isDigit_iff_toNat] at hdigit
    have hzero : '0'.toNat = 48 := rfl
    have hnine : '9'.toNat = 57 := rfl
    cases h
    omega
  case isFalse => cases h

theorem length_ofNat_append_digit_le (n : Nat) {d : Nat} (h : d < 10) :
    (ofNat (n * 10 + d)).length ≤ (ofNat n).length + 1 := by
  rw [ofNat, Nat.toDigits_eq_if (by decide)]
  split
  case isTrue => exact Nat.le_add_left 1 _
  case isFalse =>
    have hdiv : (n * 10 + d) / 10 = n := by omega
    rw [hdiv, List.length_append, ofNat]
    exact Nat.le_refl _

theorem length_ofNat_le_of_valueFrom {text : List Char} {acc n : Nat}
    (h : valueFrom acc text = some n) :
    (ofNat n).length ≤ (ofNat acc).length + text.length := by
  induction text generalizing acc with
  | nil =>
      cases h
      exact Nat.le_refl _
  | cons c rest ih =>
      obtain ⟨d, hdigit, hrest⟩ := Option.bind_eq_some_iff.mp h
      have hstep := length_ofNat_append_digit_le acc (lt_ten_of_digit? hdigit)
      have hle := ih hrest
      rw [List.length_cons]
      omega

theorem length_ofNat_le_of_digits? {text : List Char} {n : Nat} (h : digits? text = some n) :
    (ofNat n).length ≤ text.length := by
  cases text with
  | nil => cases h
  | cons c rest =>
      obtain ⟨d, hdigit, hrest⟩ := Option.bind_eq_some_iff.mp h
      rw [Nat.zero_mul, Nat.zero_add] at hrest
      have hone : (ofNat d).length = 1 := by
        rw [ofNat, Nat.toDigits_of_lt_base (lt_ten_of_digit? hdigit)]
        rfl
      have hle := length_ofNat_le_of_valueFrom hrest
      rw [List.length_cons]
      omega

theorem length_ofNat_le_of_natural? {text : List Char} {n : Nat} (h : natural? text = some n) :
    (ofNat n).length ≤ text.length := by
  unfold natural? at h
  split at h
  · exact Nat.le_succ_of_le (length_ofNat_le_of_digits? h)
  · exact length_ofNat_le_of_digits? h

theorem length_ofInt_le_of_signed? {text : List Char} {n : Int} (h : signed? text = some n) :
    (ofInt n).length ≤ text.length := by
  unfold signed? at h
  split at h
  · simp only [Option.map_eq_some_iff, Option.bind_eq_bind, Option.bind_eq_some_iff,
      Option.pure_def, Option.some.injEq] at h
    obtain ⟨_, ⟨m, hm, rfl⟩, rfl⟩ := h
    have hle := length_ofNat_le_of_digits? hm
    cases m with
    | zero => exact Nat.le_succ_of_le hle
    | succ m => exact Nat.succ_le_succ hle
  · obtain ⟨m, hm, rfl⟩ := Option.map_eq_some_iff.mp h
    exact length_ofNat_le_of_natural? hm

theorem length_ofNat_le_of_word? {text : List Char} {word : UInt64}
    (h : word? text = some word) : (ofNat word.toNat).length ≤ text.length := by
  obtain ⟨n, hn, h⟩ := Option.bind_eq_some_iff.mp h
  split at h
  case isTrue hlt =>
    cases h
    rw [UInt64.toNat_ofNat_of_lt' hlt]
    exact length_ofNat_le_of_natural? hn
  case isFalse => cases h

theorem length_ofInt_le_of_signedWord? {text : List Char} {word : Int64}
    (h : signedWord? text = some word) : (ofInt word.toInt).length ≤ text.length := by
  obtain ⟨n, hn, h⟩ := Option.bind_eq_some_iff.mp h
  split at h
  case isTrue hrange =>
    cases h
    rw [Int64.toInt_ofInt_of_le hrange.1 hrange.2]
    exact length_ofInt_le_of_signed? hn
  case isFalse => cases h

end ArtifactAtlas.Numeral
