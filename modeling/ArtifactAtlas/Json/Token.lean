import ArtifactAtlas.Json.Value
import ArtifactAtlas.Text.Numeral

/-!
# JSON tokens

Words, numbers and quoted texts.  Numbers and texts have two readings.  The full
one gives the value; the skimming one only finds the end of the token, and so
lets pass what has no value: numbers out of range and unpaired surrogates.
-/

namespace ArtifactAtlas.Json

/-- Why a text is not the JSON document that was asked for. -/
inductive Fault where
  | malformed
  | truncated
  /-- The text is JSON of another shape. -/
  | mismatched
  deriving DecidableEq, Repr

def Fault.tag : Fault → String
  | .malformed => "json:syntax"
  | .truncated => "json:eof"
  | .mismatched => "json:data"

/-! ## Blanks and words -/

def isBlank (c : Char) : Bool :=
  c = ' ' || c = '\n' || c = '\t' || c = '\r'

def skipBlank (text : List Char) : List Char :=
  text.dropWhile isBlank

theorem length_skipBlank_le (text : List Char) :
    (skipBlank text).length ≤ text.length :=
  (List.dropWhile_sublist isBlank).length_le

/-- The text after a word. -/
def readWord : List Char → List Char → Except Fault (List Char)
  | [], text => .ok text
  | _ :: _, [] => .error .truncated
  | w :: word, c :: text => if c = w then readWord word text else .error .malformed

theorem length_le_of_readWord {word text rest : List Char}
    (h : readWord word text = .ok rest) : rest.length ≤ text.length := by
  induction word generalizing text with
  | nil => cases h; exact Nat.le_refl _
  | cons w word ih =>
      cases text with
      | nil => cases h
      | cons c text =>
          simp only [readWord] at h
          split at h
          · exact Nat.le_succ_of_le (ih h)
          · cases h

/-! ## Quoted texts -/

def hexDigit? (c : Char) : Option Nat :=
  if c.isDigit then some (c.toNat - '0'.toNat)
  else if 'a' ≤ c ∧ c ≤ 'f' then some (c.toNat - 'a'.toNat + 10)
  else if 'A' ≤ c ∧ c ≤ 'F' then some (c.toNat - 'A'.toNat + 10)
  else none

def fourHexDigits? (a b c d : Char) : Option Nat := do
  let a ← hexDigit? a
  let b ← hexDigit? b
  let c ← hexDigit? c
  let d ← hexDigit? d
  return ((a * 16 + b) * 16 + c) * 16 + d

def byteCount (text : List Char) : Nat :=
  text.foldl (fun count c => count + c.utf8Size) 0

/-- The four hexadecimal digits of an escape.  Fewer than four bytes end the text. -/
def readUnit : List Char → Except Fault (Nat × List Char)
  | a :: b :: c :: d :: rest =>
      match fourHexDigits? a b c d with
      | some unit => .ok (unit, rest)
      | none => .error .malformed
  | rest => .error (if byteCount rest < 4 then .truncated else .malformed)

def isLeadingSurrogate (unit : Nat) : Bool :=
  0xD800 ≤ unit && unit ≤ 0xDBFF

def isTrailingSurrogate (unit : Nat) : Bool :=
  0xDC00 ≤ unit && unit ≤ 0xDFFF

/-- The second half of a surrogate pair, backslash included. -/
def readTrailing : List Char → Except Fault (Nat × List Char)
  | [] => .error .truncated
  | ['\\'] => .error .truncated
  | '\\' :: 'u' :: rest =>
      match readUnit rest with
      | .error fault => .error fault
      | .ok (unit, rest) =>
          if isTrailingSurrogate unit then .ok (unit, rest) else .error .malformed
  | _ => .error .malformed

/-- The character of a `\u` escape, which may take a surrogate pair. -/
def readCodePoint (text : List Char) : Except Fault (Char × List Char) :=
  match readUnit text with
  | .error fault => .error fault
  | .ok (unit, rest) =>
      if isTrailingSurrogate unit then .error .malformed
      else if isLeadingSurrogate unit then
        match readTrailing rest with
        | .error fault => .error fault
        | .ok (trailing, rest) =>
            .ok (Char.ofNat (0x10000 + (unit - 0xD800) * 0x400 + (trailing - 0xDC00)), rest)
      else .ok (Char.ofNat unit, rest)

def shortEscape? : Char → Option Char
  | '"' => some '"'
  | '\\' => some '\\'
  | '/' => some '/'
  | 'b' => some '\x08'
  | 'f' => some '\x0c'
  | 'n' => some '\n'
  | 'r' => some '\r'
  | 't' => some '\t'
  | _ => none

/-- The character of an escape, from after the backslash. -/
def readEscape : List Char → Except Fault (Char × List Char)
  | [] => .error .truncated
  | c :: rest =>
      if c = 'u' then readCodePoint rest
      else
        match shortEscape? c with
        | some plain => .ok (plain, rest)
        | none => .error .malformed

/-- The text after an escape, whether or not the escape stands for a character. -/
def skipEscape : List Char → Except Fault (List Char)
  | [] => .error .truncated
  | c :: rest =>
      if c = 'u' then (readUnit rest).map (·.2)
      else if (shortEscape? c).isSome then .ok rest
      else .error .malformed

theorem length_lt_of_readUnit {text rest : List Char} {unit : Nat}
    (h : readUnit text = .ok (unit, rest)) : rest.length < text.length := by
  unfold readUnit at h
  split at h
  · split at h <;> cases h
    simp only [List.length_cons]
    omega
  · cases h

theorem length_lt_of_readTrailing {text rest : List Char} {unit : Nat}
    (h : readTrailing text = .ok (unit, rest)) : rest.length < text.length := by
  unfold readTrailing at h
  split at h
  · cases h
  · cases h
  · split at h
    · cases h
    · next hunit =>
        split at h
        · cases h
          have := length_lt_of_readUnit hunit
          simp only [List.length_cons]
          omega
        · cases h
  · cases h

theorem length_lt_of_readCodePoint {text rest : List Char} {c : Char}
    (h : readCodePoint text = .ok (c, rest)) : rest.length < text.length := by
  unfold readCodePoint at h
  split at h
  · cases h
  · next hunit =>
      have hlt := length_lt_of_readUnit hunit
      split at h
      · cases h
      · split at h
        · split at h
          · cases h
          · next htrailing =>
              simp only [Except.ok.injEq, Prod.mk.injEq] at h
              exact h.2 ▸ Nat.lt_trans (length_lt_of_readTrailing htrailing) hlt
        · simp only [Except.ok.injEq, Prod.mk.injEq] at h
          exact h.2 ▸ hlt

theorem length_lt_of_readEscape {text rest : List Char} {c : Char}
    (h : readEscape text = .ok (c, rest)) : rest.length < text.length := by
  unfold readEscape at h
  split at h
  · cases h
  · simp only [List.length_cons]
    split at h
    · exact Nat.lt_succ_of_lt (length_lt_of_readCodePoint h)
    · split at h <;> cases h
      exact Nat.lt_succ_self _

theorem length_lt_of_skipEscape {text rest : List Char}
    (h : skipEscape text = .ok rest) : rest.length < text.length := by
  unfold skipEscape at h
  split at h
  · cases h
  · next c tail =>
      simp only [List.length_cons]
      split at h
      · cases hunit : readUnit tail with
        | error fault => rw [hunit] at h; cases h
        | ok unit =>
            rw [hunit] at h
            cases h
            exact Nat.lt_succ_of_lt (length_lt_of_readUnit hunit)
      · split at h <;> cases h
        exact Nat.lt_succ_self _

/-- Control characters must be escaped. -/
def isControl (c : Char) : Bool :=
  c.toNat < 0x20

/-- The characters of a quoted text and what follows it, from after the opening quote. -/
def readText (text : List Char) : Except Fault (List Char × List Char) :=
  match text with
  | [] => .error .truncated
  | c :: rest =>
      if c = '"' then .ok ([], rest)
      else if c = '\\' then
        match h : readEscape rest with
        | .error fault => .error fault
        | .ok (plain, rest') =>
            have := length_lt_of_readEscape h
            (readText rest').map fun (chars, after) => (plain :: chars, after)
      else if isControl c then .error .malformed
      else (readText rest).map fun (chars, after) => (c :: chars, after)
termination_by text.length
decreasing_by
  all_goals simp only [List.length_cons]
  all_goals omega

/-- What follows a quoted text, from after the opening quote. -/
def skipText (text : List Char) : Except Fault (List Char) :=
  match text with
  | [] => .error .truncated
  | c :: rest =>
      if c = '"' then .ok rest
      else if c = '\\' then
        match h : skipEscape rest with
        | .error fault => .error fault
        | .ok rest' =>
            have := length_lt_of_skipEscape h
            skipText rest'
      else if isControl c then .error .malformed
      else skipText rest
termination_by text.length
decreasing_by
  all_goals simp only [List.length_cons]
  all_goals omega

theorem length_lt_of_skipText {text rest : List Char}
    (h : skipText text = .ok rest) : rest.length < text.length := by
  fun_induction skipText text with
  | case1 => cases h
  | case2 => cases h; exact Nat.lt_succ_self _
  | case3 => cases h
  | case4 tail _ rest' hskip hlt ih =>
      have := ih h
      simp only [List.length_cons]
      omega
  | case5 => cases h
  | case6 c tail _ _ _ ih =>
      have := ih h
      simp only [List.length_cons]
      omega

/-! ## Numbers -/

structure NumberText where
  negative : Bool
  whole : List Char
  fraction : List Char
  exponent : Option Int
  deriving DecidableEq, Repr

/-- The digits at the front; there has to be at least one. -/
def readDigits (text : List Char) : Except Fault (List Char × List Char) :=
  match text with
  | [] => .error .truncated
  | c :: rest =>
      if c.isDigit then .ok (c :: rest.takeWhile Char.isDigit, rest.dropWhile Char.isDigit)
      else .error .malformed

/-- The digits before the point, without leading zeros. -/
def readWhole (text : List Char) : Except Fault (List Char × List Char) :=
  match text with
  | '0' :: rest =>
      match rest with
      | [] => .ok (['0'], [])
      | c :: _ => if c.isDigit then .error .malformed else .ok (['0'], rest)
  | text => readDigits text

/-- The digits after the point; none if there is no point. -/
def readFraction (text : List Char) : Except Fault (List Char × List Char) :=
  match text with
  | '.' :: rest => readDigits rest
  | text => .ok ([], text)

/-- The sign of an exponent; no sign counts as a plus. -/
def readSign : List Char → Int × List Char
  | '+' :: rest => (1, rest)
  | '-' :: rest => (-1, rest)
  | rest => (1, rest)

/-- The exponent, with an optional sign. -/
def readExponent (text : List Char) : Except Fault (Option Int × List Char) :=
  match text with
  | [] => .ok (none, [])
  | c :: rest =>
      if c = 'e' || c = 'E' then
        let (sign, rest) := readSign rest
        match readDigits rest with
        | .error fault => .error fault
        | .ok (digits, after) =>
            .ok (some (sign * ((Numeral.digits? digits).getD 0 : Nat)), after)
      else .ok (none, c :: rest)

/-- Whether a minus sign comes first, and what follows it. -/
def readMinus : List Char → Bool × List Char
  | '-' :: rest => (true, rest)
  | text => (false, text)

def readNumberText (text : List Char) : Except Fault (NumberText × List Char) :=
  let (negative, unsigned) := readMinus text
  match readWhole unsigned with
  | .error fault => .error fault
  | .ok (whole, afterWhole) =>
      match readFraction afterWhole with
      | .error fault => .error fault
      | .ok (fraction, afterFraction) =>
          match readExponent afterFraction with
          | .error fault => .error fault
          | .ok (exponent, rest) => .ok (⟨negative, whole, fraction, exponent⟩, rest)

theorem length_lt_of_readDigits {text digits rest : List Char}
    (h : readDigits text = .ok (digits, rest)) : rest.length < text.length := by
  unfold readDigits at h
  split at h
  · cases h
  · next c tail =>
      split at h <;> cases h
      exact Nat.lt_succ_of_le (List.dropWhile_sublist Char.isDigit).length_le

theorem length_lt_of_readWhole {text digits rest : List Char}
    (h : readWhole text = .ok (digits, rest)) : rest.length < text.length := by
  unfold readWhole at h
  split at h
  · split at h
    · cases h
      exact Nat.lt_succ_self _
    · split at h <;> cases h
      exact Nat.lt_succ_self _
  · exact length_lt_of_readDigits h

theorem length_le_of_readFraction {text digits rest : List Char}
    (h : readFraction text = .ok (digits, rest)) : rest.length ≤ text.length := by
  unfold readFraction at h
  split at h
  · exact Nat.le_succ_of_le (Nat.le_of_lt (length_lt_of_readDigits h))
  · cases h
    exact Nat.le_refl _

theorem length_readSign_le (text : List Char) :
    (readSign text).2.length ≤ text.length := by
  unfold readSign
  split <;> simp

theorem length_le_of_readExponent {text rest : List Char} {exponent : Option Int}
    (h : readExponent text = .ok (exponent, rest)) : rest.length ≤ text.length := by
  unfold readExponent at h
  split at h
  · cases h
    exact Nat.le_refl _
  · next c tail =>
      split at h
      · simp only at h
        split at h
        · cases h
        · next hdigits =>
            simp only [Except.ok.injEq, Prod.mk.injEq] at h
            have hdigits := length_lt_of_readDigits hdigits
            have hsign := length_readSign_le tail
            rw [← h.2, List.length_cons]
            omega
      · cases h
        exact Nat.le_refl _

theorem length_readMinus_le (text : List Char) :
    (readMinus text).2.length ≤ text.length := by
  unfold readMinus
  split <;> simp

theorem length_lt_of_readNumberText {text rest : List Char} {n : NumberText}
    (h : readNumberText text = .ok (n, rest)) : rest.length < text.length := by
  unfold readNumberText at h
  have hminus := length_readMinus_le text
  simp only at h
  split at h
  · cases h
  · next hwhole =>
      have hwhole := length_lt_of_readWhole hwhole
      split at h
      · cases h
      · next hfraction =>
          have hfraction := length_le_of_readFraction hfraction
          split at h
          · cases h
          · next hexponent =>
              have hexponent := length_le_of_readExponent hexponent
              simp only [Except.ok.injEq, Prod.mk.injEq] at h
              rw [← h.2]
              omega

/-- Takes digits into `acc` as long as it stays below the word size. -/
def absorb (acc : Nat) : List Char → Nat × List Char
  | [] => (acc, [])
  | c :: rest =>
      let next := acc * 10 + (c.toNat - '0'.toNat)
      if next < Numeral.wordSize then absorb next rest else (acc, c :: rest)

/-- Nothing but digits, and few enough of them for a whole number. -/
def NumberText.isWhole (n : NumberText) : Bool :=
  n.fraction.isEmpty && n.exponent.isNone && (absorb 0 n.whole).2.isEmpty

/--
The value.  Whole numbers of one machine word stay whole, minus zero apart.  Any
other number keeps the leading digits that fit a word, drops the digits beyond
them, and is scaled by a power of ten; it has no value when it is out of range.
-/
def NumberText.value? (n : NumberText) : Option Number :=
  let (whole, dropped) := absorb 0 n.whole
  if n.isWhole && !n.negative then some (.natural whole)
  else if n.isWhole && 0 < whole && whole ≤ Numeral.signedLimit then some (.negative whole)
  else
    let (significand, ignored) := absorb whole n.fraction
    let power : Int :=
      (dropped.length : Int) - (n.fraction.length - ignored.length : Nat) + n.exponent.getD 0
    (Decimal.Magnitude.ofNat? significand).bind fun start =>
      (start.scaleByTen? power).map fun magnitude => .real ⟨n.negative, magnitude⟩

def readNumber (text : List Char) : Except Fault Number :=
  match readNumberText text with
  | .error fault => .error fault
  | .ok (written, _) =>
      match written.value? with
      | some n => .ok n
      | none => .error .malformed

/-- What follows a number, in range or not. -/
def skipNumber (text : List Char) : Except Fault (List Char) :=
  match readNumberText text with
  | .error _ => .error .malformed
  | .ok (_, rest) => .ok rest

theorem length_lt_of_skipNumber {text rest : List Char}
    (h : skipNumber text = .ok rest) : rest.length < text.length := by
  unfold skipNumber at h
  split at h
  · cases h
  · next hnumber =>
      cases h
      exact length_lt_of_readNumberText hnumber

end ArtifactAtlas.Json
