import ArtifactAtlas.Proofs.SourceMap.Fields
import Mathlib.Order.WellFounded

/-!
# What a compressed map says

The meaning of a text, entry by entry and without going along: a field has the
last value that was given for it, and if it was never given one, that of the
seed.  The reader carries along nothing but the entry before, and `SumsUp` is
the invariant that makes this enough: that entry has for each field what all the
entries so far say.  An entry that cannot be read is ill-formed on its own,
whatever comes before it, so the reader stops at the first of them.
-/

namespace ArtifactAtlas.SourceMap

open Text

/-! ## Ill-formed entries -/

/-- There is a text in the field, and it is that of no value. -/
def Field.Unreadable (field : Field) (entry : List Char) : Prop :=
  field.textIn entry ≠ [] ∧ field.parse? (field.textIn entry) = none

instance (field : Field) (entry : List Char) : Decidable (field.Unreadable entry) :=
  inferInstanceAs (Decidable (_ ∧ _))

def IllFormed (entry : List Char) : Prop :=
  5 < (split ':' entry).length ∨ ∃ field : Field, field.Unreadable entry

instance (entry : List Char) : Decidable (IllFormed entry) :=
  decidable_of_iff
    (5 < (split ':' entry).length ∨ ∃ field ∈ Field.all, field.Unreadable entry)
    (by simp [IllFormed, Field.mem_all])

/-- The defects of an entry: too many fields, or else the first field that cannot be read. -/
inductive Defect.Of (entry : List Char) : Defect → Prop
  | tooManyFields (many : 5 < (split ':' entry).length) :
      Of entry (.tooManyFields (String.ofList entry))
  | invalidField (field : Field) (few : (split ':' entry).length ≤ 5)
      (unreadable : field.Unreadable entry)
      (first : ∀ other : Field, other.place < field.place → ¬ other.Unreadable entry) :
      Of entry (.invalidField field (String.ofList (field.textIn entry)))

theorem IllFormed.exists_defect {entry : List Char} (h : IllFormed entry) :
    ∃ defect : Defect, defect.Of entry := by
  by_cases hmany : 5 < (split ':' entry).length
  · exact ⟨_, .tooManyFields hmany⟩
  · have hsome : {field : Field | field.Unreadable entry}.Nonempty := h.resolve_left hmany
    obtain ⟨field, hfield, hfirst⟩ := (measure Field.place).wf.has_min _ hsome
    exact ⟨_, .invalidField field (Nat.not_lt.mp hmany) hfield
      fun other hlt hother => hfirst other hother hlt⟩

theorem Field.exists_read_eq_ok {field : Field} {entry : List Char}
    (h : ¬ field.Unreadable entry) (previous : Entry) :
    ∃ value, field.read previous entry = .ok value := by
  by_cases hempty : field.textIn entry = []
  · exact ⟨_, read_of_empty hempty⟩
  · cases hparse : field.parse? (field.textIn entry) with
    | none => exact absurd ⟨hempty, hparse⟩ h
    | some value => exact ⟨value, by rw [read_of_ne_nil hempty, hparse]⟩

theorem Field.Unreadable.read_eq {field : Field} {entry : List Char}
    (h : field.Unreadable entry) (previous : Entry) :
    field.read previous entry =
      .error (.invalidField field (String.ofList (field.textIn entry))) := by
  rw [read_of_ne_nil h.1, h.2]

theorem Defect.Of.readEntry_eq {defect : Defect} {entry : List Char} (h : defect.Of entry)
    (previous : Entry) : readEntry previous entry = .error defect := by
  cases h with
  | tooManyFields hmany =>
      rw [readEntry, if_pos hmany]
      rfl
  | invalidField field few unreadable first =>
      -- The fields are read in order, so those before the unreadable one come first.
      have hbefore : ∀ other : Field, other.place < field.place →
          ∃ value, other.read previous entry = .ok value :=
        fun other hlt => Field.exists_read_eq_ok (first other hlt) previous
      have hread := unreadable.read_eq previous
      rw [SourceMap.readEntry_eq few]
      cases field with
      | offset =>
          rw [hread]
          rfl
      | length =>
          obtain ⟨_, hoffset⟩ := hbefore .offset (by decide)
          rw [hoffset, hread]
          rfl
      | fileIndex =>
          obtain ⟨_, hoffset⟩ := hbefore .offset (by decide)
          obtain ⟨_, hlength⟩ := hbefore .length (by decide)
          rw [hoffset, hlength, hread]
          rfl
      | jump =>
          obtain ⟨_, hoffset⟩ := hbefore .offset (by decide)
          obtain ⟨_, hlength⟩ := hbefore .length (by decide)
          obtain ⟨_, hfile⟩ := hbefore .fileIndex (by decide)
          rw [hoffset, hlength, hfile, hread]
          rfl
      | modifierDepth =>
          obtain ⟨_, hoffset⟩ := hbefore .offset (by decide)
          obtain ⟨_, hlength⟩ := hbefore .length (by decide)
          obtain ⟨_, hfile⟩ := hbefore .fileIndex (by decide)
          obtain ⟨_, hjump⟩ := hbefore .jump (by decide)
          rw [hoffset, hlength, hfile, hjump, hread]
          rfl

theorem exists_readEntry_eq_ok {entry : List Char} (h : ¬ IllFormed entry) (previous : Entry) :
    ∃ read, readEntry previous entry = .ok read := by
  rw [IllFormed, not_or, not_exists, Nat.not_lt] at h
  have hfields : ∀ field : Field, ∃ value, field.read previous entry = .ok value :=
    fun field => Field.exists_read_eq_ok (h.2 field) previous
  obtain ⟨offset, hoffset⟩ := hfields .offset
  obtain ⟨length, hlength⟩ := hfields .length
  obtain ⟨fileIndex, hfile⟩ := hfields .fileIndex
  obtain ⟨jump, hjump⟩ := hfields .jump
  obtain ⟨depth, hdepth⟩ := hfields .modifierDepth
  refine ⟨⟨offset, length, fileIndex, jump, depth⟩, ?_⟩
  rw [readEntry_eq h.1, hoffset, hlength, hfile, hjump, hdepth]
  rfl

/-! ## Values given so far -/

/-- The last text, of those that are not empty, that some entries have for a field. -/
def Field.lastGiven (field : Field) (entries : List (List Char)) : Option (List Char) :=
  ((entries.map field.textIn).filter (· ≠ [])).getLast?

/-- What some entries say of a field: the value that was last given for it, or that of the
seed when none was given. -/
def Field.HasValue (field : Field) (entries : List (List Char)) (value : field.Value) : Prop :=
  match field.lastGiven entries with
  | none => value = Entry.seed.value field
  | some text => field.parse? text = some value

theorem Field.lastGiven_append (field : Field) (entries : List (List Char))
    (entry : List Char) :
    field.lastGiven (entries ++ [entry]) =
      if field.textIn entry = [] then field.lastGiven entries
      else some (field.textIn entry) := by
  rw [lastGiven, List.map_append, List.filter_append, List.getLast?_append]
  split
  case isTrue h => simp [h, lastGiven]
  case isFalse h => simp [h]

/-- The entry has in each field what some texts of entries say. -/
def Entry.SumsUp (entry : Entry) (entries : List (List Char)) : Prop :=
  ∀ field : Field, field.HasValue entries (entry.value field)

theorem Entry.seed_sumsUp : Entry.seed.SumsUp [] :=
  fun _ => rfl

/-- The step: whatever an entry leaves out it has from the entry before. -/
theorem Entry.SumsUp.readEntry {previous entry : Entry} {before : List (List Char)}
    {text : List Char} (hprevious : previous.SumsUp before)
    (h : readEntry previous text = .ok entry) : entry.SumsUp (before ++ [text]) := by
  intro field
  have hvalue := Field.read_eq_ok_iff.mp ((readEntry_eq_ok_iff.mp h).2 field)
  rw [Field.HasValue, Field.lastGiven_append]
  by_cases hempty : field.textIn text = []
  · rw [if_pos hempty] at hvalue ⊢
    rw [hvalue]
    exact hprevious field
  · rw [if_neg hempty] at hvalue ⊢
    exact hvalue

/-! ## Whole maps -/

theorem exists_readEntries_eq_ok {texts : List (List Char)}
    (h : ∀ text ∈ texts, ¬ IllFormed text) (number : Nat) (previous : Entry) :
    ∃ entries, readEntries number previous texts = .ok entries := by
  induction texts generalizing number previous with
  | nil => exact ⟨[], rfl⟩
  | cons text rest ih =>
      rw [List.forall_mem_cons] at h
      obtain ⟨entry, hentry⟩ := exists_readEntry_eq_ok h.1 previous
      obtain ⟨others, hothers⟩ := ih h.2 (number + 1) entry
      exact ⟨_, readEntries_cons_eq_ok_iff.mpr ⟨entry, others, hentry, hothers, rfl⟩⟩

/-- The run: an entry sums up the texts up to its own. -/
theorem sumsUp_of_readEntries {number : Nat} {previous : Entry}
    {before texts : List (List Char)} {entries : List Entry}
    (hprevious : previous.SumsUp before)
    (h : readEntries number previous texts = .ok entries) {n : Nat} {entry : Entry}
    (hentry : entries[n]? = some entry) : entry.SumsUp (before ++ texts.take (n + 1)) := by
  induction texts generalizing number previous before entries n with
  | nil =>
      cases h
      cases hentry
  | cons text rest ih =>
      obtain ⟨first, others, hfirst, hothers, rfl⟩ := readEntries_cons_eq_ok_iff.mp h
      have hstep := hprevious.readEntry hfirst
      cases n with
      | zero =>
          cases hentry
          exact hstep
      | succ n =>
          rw [List.take_succ_cons, List.append_cons]
          exact ih hstep hothers hentry

/-- The run that stops: the first ill-formed entry is named, by its number. -/
theorem readEntries_eq_error {before : List (List Char)}
    (hbefore : ∀ text ∈ before, ¬ IllFormed text) {text : List Char} {defect : Defect}
    (h : defect.Of text) (after : List (List Char)) (number : Nat) (previous : Entry) :
    readEntries number previous (before ++ text :: after) =
      .error ⟨number + before.length, defect⟩ := by
  induction before generalizing number previous with
  | nil => rw [List.nil_append, readEntries, h.readEntry_eq]; rfl
  | cons first rest ih =>
      rw [List.forall_mem_cons] at hbefore
      obtain ⟨entry, hentry⟩ := exists_readEntry_eq_ok hbefore.1 previous
      rw [List.cons_append, readEntries, hentry, List.length_cons, Nat.add_comm rest.length,
        ← Nat.add_assoc]
      simp only [ih hbefore.2]
      rfl

theorem exists_first_illFormed {texts : List (List Char)} (h : ∃ text ∈ texts, IllFormed text) :
    ∃ before text after, texts = before ++ text :: after ∧
      (∀ earlier ∈ before, ¬ IllFormed earlier) ∧ IllFormed text := by
  have hsome : (texts.find? fun text => decide (IllFormed text)).isSome := by
    simpa using h
  obtain ⟨text, hfind⟩ := Option.isSome_iff_exists.mp hsome
  obtain ⟨htext, before, after, rfl, hbefore⟩ := List.find?_eq_some_iff_append.mp hfind
  exact ⟨before, text, after, rfl, by simpa using hbefore, by simpa using htext⟩

/--
What a text says is read off its entries.  If one of them is ill-formed, the
first of these is named with its defect.  Otherwise there is an entry for each,
and each of its fields has the value last given up to there, or the seed's when
none was given.
-/
theorem decode_reads_last_given_values (text : String) (h : text ≠ "") :
    ((∃ entry ∈ split ';' text.toList, IllFormed entry) →
      ∃ before entry after defect, split ';' text.toList = before ++ entry :: after ∧
        (∀ earlier ∈ before, ¬ IllFormed earlier) ∧ IllFormed entry ∧
        Defect.Of entry defect ∧ decode text = .error ⟨before.length, defect⟩) ∧
    ((∀ entry ∈ split ';' text.toList, ¬ IllFormed entry) →
      ∃ entries, decode text = .ok entries ∧
        entries.length = (split ';' text.toList).length ∧
        ∀ n entry, entries[n]? = some entry → ∀ field : Field,
          field.HasValue ((split ';' text.toList).take (n + 1)) (entry.value field)) := by
  rw [decode_of_ne_empty h]
  constructor
  · intro hill
    obtain ⟨before, entry, after, heq, hbefore, hentry⟩ := exists_first_illFormed hill
    obtain ⟨defect, hdefect⟩ := hentry.exists_defect
    refine ⟨before, entry, after, defect, heq, hbefore, hentry, hdefect, ?_⟩
    rw [heq, readEntries_eq_error hbefore hdefect, Nat.zero_add]
  · intro hwell
    obtain ⟨entries, hentries⟩ := exists_readEntries_eq_ok hwell 0 .seed
    refine ⟨entries, hentries, length_of_readEntries hentries, fun n entry hentry => ?_⟩
    exact sumsUp_of_readEntries Entry.seed_sumsUp hentries hentry

/-- A map whose entries leave fields out at their front, in their middle and at their end. -/
def inheritingMap : String := ";5:+6;;:::o;7::-1"

/-- A map with two entries that cannot be read, the first of them for two fields. -/
def brokenMap : String := "1:2;;9:x:y;0:1:2:i:3:4"

theorem inheritingMap_is_read_and_brokenMap_is_not :
    inheritingMap ≠ "" ∧ (∀ entry ∈ split ';' inheritingMap.toList, ¬ IllFormed entry) ∧
    (∃ entries, decode inheritingMap = .ok entries ∧ entries.length = 5 ∧
      ∀ n entry, entries[n]? = some entry → ∀ field : Field,
        field.HasValue ((split ';' inheritingMap.toList).take (n + 1)) (entry.value field)) ∧
    decode inheritingMap = .ok [.seed, ⟨5, 6, -2, .regular, 0⟩, ⟨5, 6, -2, .regular, 0⟩,
      ⟨5, 6, -2, .out, 0⟩, ⟨7, 6, -1, .out, 0⟩] ∧
    brokenMap ≠ "" ∧ (∃ entry ∈ split ';' brokenMap.toList, IllFormed entry) ∧
    (∃ before entry after defect, split ';' brokenMap.toList = before ++ entry :: after ∧
      (∀ earlier ∈ before, ¬ IllFormed earlier) ∧ IllFormed entry ∧
      Defect.Of entry defect ∧ decode brokenMap = .error ⟨before.length, defect⟩) ∧
    decode brokenMap = .error ⟨2, .invalidField .length "x"⟩ := by
  have hgood : inheritingMap ≠ "" := by decide
  have hbad : brokenMap ≠ "" := by decide
  have hwell : ∀ entry ∈ split ';' inheritingMap.toList, ¬ IllFormed entry := by decide +kernel
  have hill : ∃ entry ∈ split ';' brokenMap.toList, IllFormed entry := by decide +kernel
  exact ⟨hgood, hwell, (decode_reads_last_given_values inheritingMap hgood).2 hwell, rfl,
    hbad, hill, (decode_reads_last_given_values brokenMap hbad).1 hill, rfl⟩

end ArtifactAtlas.SourceMap
