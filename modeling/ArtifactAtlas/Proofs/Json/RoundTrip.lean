import ArtifactAtlas.Json.Record
import ArtifactAtlas.Proofs.Json.Format
import ArtifactAtlas.Proofs.Json.Respelling
import ArtifactAtlas.Proofs.Text.Numeral
import Mathlib.Data.List.Pairwise

/-!
# Reading back what was written

What a format writes is read as what it was, and under whatever names the fields of
records are given.  This goes through lists, maps and records: a record is read back if
its fields are, and no name stands for two of its fields.
-/

namespace ArtifactAtlas.Json

/-! ## Item by item -/

section

variable {γ δ ε : Type} {related : γ → δ → Prop} {values : List γ}

theorem mapM_eq_some_of_forall₂ {decode : δ → Option ε} {g : γ → ε} {items : List δ}
    (h : List.Forall₂ related values items)
    (hdecode : ∀ value ∈ values, ∀ item, related value item → decode item = some (g value)) :
    items.mapM decode = some (values.map g) := by
  induction h with
  | nil => rfl
  | cons hitem _ ih =>
      rw [List.forall_mem_cons] at hdecode
      simp [List.mapM_cons, hdecode.1 _ hitem, ih hdecode.2]

theorem exists_mapM_eq_some {step : γ → Option δ}
    (h : ∀ value ∈ values, ∃ result, step value = some result ∧ related value result) :
    ∃ results, values.mapM step = some results ∧ List.Forall₂ related values results := by
  induction values with
  | nil => exact ⟨[], rfl, .nil⟩
  | cons value rest ih =>
      obtain ⟨⟨result, hresult, hrelated⟩, hrest⟩ := List.forall_mem_cons.mp h
      obtain ⟨results, hresults, hothers⟩ := ih hrest
      exact ⟨result :: results, by simp [List.mapM_cons, hresult, hresults],
        .cons hrelated hothers⟩

theorem exists_append_of_forall₂ {before after : List γ} {items : List δ}
    (h : List.Forall₂ related (before ++ after) items) :
    ∃ first second, items = first ++ second ∧ List.Forall₂ related before first ∧
      List.Forall₂ related after second :=
  ⟨items.take before.length, items.drop before.length, (List.take_append_drop _ _).symm,
    (List.forall₂_take_append items before after h.flip).flip,
    (List.forall₂_drop_append items before after h.flip).flip⟩

end

/-! ## Values -/

namespace Format

variable {α : Type} {format : Format α}

/-- A value is read back as `result`, also from a document with other names for fields. -/
def Keeps (format : Format α) (value result : α) : Prop :=
  ∀ document, format.shape.Respells (format.encode value) document →
    format.decode document = some result

theorem Keeps.decode_encode {value result : α} (h : format.Keeps value result) :
    format.decode (format.encode value) = some result :=
  h _ (Shape.respells_refl _ _)

theorem keeps_any (value : Json) : any.Keeps value value :=
  fun _ hrespells => congrArg some hrespells.symm

theorem keeps_text (value : String) : text.Keeps value value := by
  rintro _ rfl
  rfl

theorem keeps_natural (value : Nat) : natural.Keeps value value := by
  rintro _ rfl
  rfl

/-! ## Optional values -/

theorem decode_optional_of_ne_null {document : Json} (h : document ≠ .null) :
    format.optional.decode document = (format.decode document).map some := by
  cases document <;> first | rfl | contradiction

theorem keeps_optional (h : ∀ value, format.Keeps value value)
    (hne : ∀ value, format.encode value ≠ .null) (value : Option α) :
    format.optional.Keeps value value := by
  intro document hrespells
  cases value with
  | none =>
      rw [hrespells.eq_null_iff.mp rfl]
      rfl
  | some value =>
      have hdocument : document ≠ .null := fun hnull => hne value (hrespells.eq_null_iff.mpr hnull)
      rw [decode_optional_of_ne_null hdocument, h value document hrespells, Option.map_some]

/-! ## Lists and maps -/

variable {f : α → α}

theorem keeps_list {values : List α} (h : ∀ value ∈ values, format.Keeps value value) :
    (list format).Keeps values values := by
  intro document hrespells
  cases document
  case array items =>
    have hitems : List.Forall₂ format.shape.Respells (values.map format.encode) items := hrespells
    rw [List.forall₂_map_left_iff] at hitems
    have hvalues := mapM_eq_some_of_forall₂ hitems h
    rwa [List.map_id'] at hvalues
  all_goals cases hrespells

theorem keeps_texts (values : List String) : (list text).Keeps values values :=
  keeps_list fun value _ => keeps_text value

/-- The entries of a map are found again in the order of their keys, if each is. -/
theorem mapM_members_eq_some {κ : Type} [LT κ] [DecidableEq κ] [DecidableLT κ] [KeyOrder κ]
    {map : OrderedMap κ α} (name : κ → String) {decode : String × Json → Option (κ × α)}
    {members : List (String × Json)}
    (hmembers : List.Forall₂ (fun member other => member.1 = other.1 ∧
        format.shape.Respells member.2 other.2)
      (map.toList.map fun entry => (name entry.1, format.encode entry.2)) members)
    (hdecode : ∀ entry ∈ map.toList, ∀ document,
      format.shape.Respells (format.encode entry.2) document →
        decode (name entry.1, document) = some (entry.1, f entry.2)) :
    (members.mapM decode).map OrderedMap.ofList = some (map.mapValues fun _ => f) := by
  rw [List.forall₂_map_left_iff] at hmembers
  have hentries : members.mapM decode =
      some (map.toList.map fun entry => (entry.1, f entry.2)) := by
    refine mapM_eq_some_of_forall₂ hmembers ?_
    rintro entry hentry ⟨_, document⟩ ⟨rfl, hdocument⟩
    exact hdecode entry hentry document hdocument
  rw [hentries, Option.map_some, OrderedMap.ofList_map_entries map fun _ => f]

theorem Keeps.mapping {map : OrderedMap String α}
    (h : ∀ entry ∈ map.toList, format.Keeps entry.2 (f entry.2)) :
    (mapping format).Keeps map (map.mapValues fun _ => f) := by
  intro document hrespells
  cases document
  case object members =>
    refine mapM_members_eq_some id hrespells fun entry hentry document hdocument => ?_
    rw [h entry hentry document hdocument]
    rfl
  all_goals cases hrespells

theorem keeps_mapping {map : OrderedMap String α}
    (h : ∀ entry ∈ map.toList, format.Keeps entry.2 entry.2) : (mapping format).Keeps map map := by
  have hmap : (mapping format).Keeps map (map.mapValues fun _ value => value) := Keeps.mapping h
  rwa [OrderedMap.mapValues_id'] at hmap

theorem numberOfName?_text {n : Nat} (h : n < Numeral.wordSize) :
    numberOfName? (Numeral.text n) = some n := by
  simp [numberOfName?, Numeral.text, Numeral.size?, h]

theorem keeps_numbered {map : OrderedMap Nat α} (hkeys : ∀ key ∈ map.keys, key < Numeral.wordSize)
    (h : ∀ entry ∈ map.toList, format.Keeps entry.2 entry.2) :
    (numbered format).Keeps map map := by
  intro document hrespells
  cases document
  case object members =>
    have hmap : (numbered format).decode (.object members) =
        some (map.mapValues fun _ value => value) := by
      refine mapM_members_eq_some Numeral.text hrespells fun entry hentry document hdocument => ?_
      have hkey := numberOfName?_text (hkeys entry.1 (List.mem_map_of_mem hentry))
      simp [hkey, h entry hentry document hdocument]
    rwa [OrderedMap.mapValues_id'] at hmap
  all_goals cases hrespells

end Format

/-! ## Fields -/

/-- The names that a field may be given under. -/
def FieldName.names (field : FieldName) : List String :=
  field.name :: field.otherName.toList

theorem FieldName.accepts_iff {field : FieldName} {name : String} :
    field.accepts name = true ↔ name ∈ field.names := by
  simp only [accepts, names, Bool.or_eq_true, decide_eq_true_iff, List.mem_cons,
    Option.mem_toList]
  exact or_congr_left eq_comm

/-- Whether no name stands for both fields. -/
def FieldName.Apart (field other : FieldName) : Prop :=
  ∀ name ∈ field.names, name ∉ other.names

instance (field other : FieldName) : Decidable (field.Apart other) :=
  inferInstanceAs (Decidable (∀ name ∈ field.names, name ∉ other.names))

theorem FieldName.accepts_name (field : FieldName) : field.accepts field.name = true :=
  accepts_iff.mpr List.mem_cons_self

theorem FieldName.Apart.not_accepts {field other : FieldName} (h : field.Apart other)
    {name : String} (hname : field.accepts name = true) : ¬ other.accepts name = true :=
  fun hother => h name (accepts_iff.mp hname) (accepts_iff.mp hother)

namespace FieldFormat

variable {β : Type} {format : Format β} {value result : β}

/-- A field is read back as `result`, also from a document with other names for fields;
only what may be missing is left out. -/
structure Keeps (field : FieldFormat β) (value result : β) : Prop where
  optional : field.encode value = none → field.name.required = false
  decode : ∀ slot, Option.Rel field.shape.Respells (field.encode value) slot →
    field.decode slot = some result

theorem keeps_required (name : String) (h : format.Keeps value result) :
    (required name format).Keeps value result where
  optional hnone := nomatch hnone
  decode := by
    rintro _ ⟨hrespells⟩
    exact h _ hrespells

theorem keeps_defaulted (name : String) (absent : β) (h : format.Keeps value result) :
    (defaulted name absent format).Keeps value result where
  optional hnone := nomatch hnone
  decode := by
    rintro _ ⟨hrespells⟩
    exact h _ hrespells

theorem Keeps.orNamed {field : FieldFormat β} (h : field.Keeps value result) (other : String) :
    (field.orNamed other).Keeps value result :=
  ⟨h.optional, h.decode⟩

theorem keeps_omittable (name : String) (h : ∀ value, format.Keeps value value)
    (hne : ∀ value, format.encode value ≠ .null) (value : Option β) :
    (omittable name format).Keeps value value where
  optional _ := rfl
  decode := by
    cases value with
    | none =>
        rintro _ ⟨⟩
        rfl
    | some value =>
        rintro _ ⟨hrespells⟩
        exact Format.keeps_optional h hne (some value) _ hrespells

/-- A `null` that is written is not found again. -/
theorem keeps_omittable_any (name : String) (value : Option Json) :
    (omittable name .any).Keeps value (value.bind present?) where
  optional _ := rfl
  decode := by
    cases value with
    | none =>
        rintro _ ⟨⟩
        rfl
    | some value =>
        rintro _ ⟨rfl⟩
        cases value <;> rfl

theorem keeps_opaqueValue (name : String) (value : Json) :
    (opaqueValue name).Keeps value value where
  optional _ := rfl
  decode := by
    cases value
    case null =>
      rintro _ ⟨⟩
      rfl
    all_goals
      rintro _ ⟨rfl⟩
      rfl

end FieldFormat

/-! ## The members of a record -/

/-- A field of a record and what is written for it. -/
structure Written where
  name : FieldName
  shape : Shape
  document : Option Json
  /-- Only what may be missing is left out. -/
  optional : document = none → name.required = false

/-- Members that give these fields one after the other, each under one of its names. -/
inductive Spelled : List Written → List (String × Json) → Prop
  | nil : Spelled [] []
  | missing {field : Written} {fields : List Written} {members : List (String × Json)}
      (hdocument : field.document = none) (hrest : Spelled fields members) :
      Spelled (field :: fields) members
  | given {field : Written} {fields : List Written} {members : List (String × Json)}
      {name : String} {document other : Json} (hdocument : field.document = some document)
      (hname : field.name.accepts name = true) (hrespells : field.shape.Respells document other)
      (hrest : Spelled fields members) : Spelled (field :: fields) ((name, other) :: members)

/-- Whether no name stands for two of the fields. -/
def NamedApart (fields : List (FieldName × Shape)) : Prop :=
  fields.Pairwise fun field other => field.1.Apart other.1

instance (fields : List (FieldName × Shape)) : Decidable (NamedApart fields) :=
  inferInstanceAs (Decidable (fields.Pairwise fun field other => field.1.Apart other.1))

namespace Written

/-- The field as its record format has it. -/
def entry (field : Written) : FieldName × Shape :=
  (field.name, field.shape)

/-- The member that is written for the field, if there is one. -/
def member? (field : Written) : Option (String × Json) :=
  field.document.map (field.name.name, ·)

end Written

theorem NamedApart.eq_of_accepts {fields : List (FieldName × Shape)} (h : NamedApart fields)
    {field other : FieldName × Shape} (hfield : field ∈ fields) (hother : other ∈ fields)
    {name : String} (hname : field.1.accepts name = true) (hsame : other.1.accepts name = true) :
    field = other := by
  by_contra hne
  have : Std.Symm fun field other : FieldName × Shape => field.1.Apart other.1 :=
    ⟨fun _ _ hapart name hname hother => hapart name hother hname⟩
  exact (List.Pairwise.forall h hfield hother hne).not_accepts hname hsame

/-- A respelled record gives its fields one after the other. -/
theorem spelled_of_fieldsRespell {all : List (FieldName × Shape)} (hapart : NamedApart all)
    {fields : List Written} (hfields : ∀ field ∈ fields, field.entry ∈ all)
    {members : List (String × Json)}
    (h : List.Forall₂ (FieldsRespell all) (fields.filterMap Written.member?) members) :
    Spelled fields members := by
  -- the induction takes fields off the front, but a member may be read as any of them all
  induction fields generalizing members with
  | nil =>
      cases h
      exact .nil
  | cons field fields ih =>
      rw [List.forall_mem_cons] at hfields
      cases hdocument : field.document with
      | none =>
          have hnone : field.member? = none := by rw [Written.member?, hdocument, Option.map_none]
          rw [List.filterMap_cons_none hnone] at h
          exact .missing hdocument (ih hfields.2 h)
      | some document =>
          have hsome : field.member? = some (field.name.name, document) := by
            rw [Written.member?, hdocument, Option.map_some]
          rw [List.filterMap_cons_some hsome] at h
          obtain ⟨⟨name, other⟩, rest, hmember, hrest, rfl⟩ := List.forall₂_cons_left_iff.mp h
          obtain heq | ⟨found, hfound, hwritten, hname, hrespells⟩ := fieldsRespell_iff.mp hmember
          · cases heq
            exact .given hdocument field.name.accepts_name (Shape.respells_refl _ _)
              (ih hfields.2 hrest)
          · obtain rfl := hapart.eq_of_accepts hfound hfields.1 hwritten field.name.accepts_name
            exact .given hdocument hname hrespells (ih hfields.2 hrest)

theorem Spelled.exists_accepts {fields : List Written} {members : List (String × Json)}
    (h : Spelled fields members) {member : String × Json} (hmember : member ∈ members) :
    ∃ field ∈ fields, field.name.accepts member.1 = true := by
  induction h with
  | nil => cases hmember
  | missing _ _ ih =>
      obtain ⟨field, hfield, hname⟩ := ih hmember
      exact ⟨field, List.mem_cons_of_mem _ hfield, hname⟩
  | given _ hname _ _ ih =>
      rcases List.mem_cons.mp hmember with rfl | hmember
      · exact ⟨_, List.mem_cons_self, hname⟩
      · obtain ⟨field, hfield, hname⟩ := ih hmember
        exact ⟨field, List.mem_cons_of_mem _ hfield, hname⟩

theorem Spelled.filter_eq_nil {fields : List Written} {members : List (String × Json)}
    (h : Spelled fields members) (field : FieldName)
    (hapart : ∀ entry ∈ fields.map Written.entry, field.Apart entry.1) :
    (members.filter fun member => field.accepts member.1) = [] := by
  rw [List.filter_eq_nil_iff]
  intro member hmember hname
  obtain ⟨other, hother, hsame⟩ := h.exists_accepts hmember
  exact (hapart other.entry (List.mem_map_of_mem hother)).not_accepts hname hsame

/-- Each field finds what is written for it, and nothing else. -/
theorem Spelled.exists_slot {fields : List Written} {members : List (String × Json)}
    (h : Spelled fields members) (hapart : NamedApart (fields.map Written.entry)) :
    ∀ field ∈ fields, ∃ slot, slot? members field.name = some slot ∧
      Option.Rel field.shape.Respells field.document slot := by
  induction h with
  | nil => exact List.forall_mem_nil _
  | @missing field fields members hdocument hrest ih =>
      obtain ⟨hfield, hfields⟩ := List.pairwise_cons.mp hapart
      refine List.forall_mem_cons.mpr ⟨⟨none, ?_, by rw [hdocument]; exact .none⟩, ih hfields⟩
      simp [slot?, hrest.filter_eq_nil field.name hfield, field.optional hdocument]
  | @given field fields members name document other hdocument hname hrespells hrest ih =>
      obtain ⟨hfield, hfields⟩ := List.pairwise_cons.mp hapart
      refine List.forall_mem_cons.mpr
        ⟨⟨some other, ?_, by rw [hdocument]; exact .some hrespells⟩, fun next hnext => ?_⟩
      · simp [slot?, hname, hrest.filter_eq_nil field.name hfield]
      · -- a later field does not take the member of this one
        obtain ⟨slot, hslot, hfound⟩ := ih hfields next hnext
        have hother : ¬ next.name.accepts name = true :=
          (hfield next.entry (List.mem_map_of_mem hnext)).not_accepts hname
        refine ⟨slot, ?_, hfound⟩
        rw [← hslot, slot?, slot?, List.filter_cons_of_neg (by simpa using hother)]

/-! ## Records -/

namespace RecordFormat

variable {σ α β : Type}

/-- The fields so far are written one after the other, and what they find again makes up
`result`. -/
def Keeps (format : RecordFormat σ α) (record : σ) (result : α) : Prop :=
  ∃ fields : List Written, format.fields = fields.map Written.entry ∧
    format.encode record = fields.filterMap Written.member? ∧
    ∀ slots, List.Forall₂ (fun field slot => Option.Rel field.shape.Respells field.document slot)
      fields slots → ∀ rest, format.decode (slots ++ rest) = some (result, rest)

theorem keeps_start (make : α) (record : σ) :
    (start make : RecordFormat σ α).Keeps record make := by
  refine ⟨[], rfl, rfl, fun slots hslots rest => ?_⟩
  cases hslots
  rfl

theorem Keeps.field {format : RecordFormat σ (β → α)} {record : σ} {make : β → α}
    (h : format.Keeps record make) {get : σ → β} {next : FieldFormat β} {result : β}
    (hnext : next.Keeps (get record) result) :
    (format.field next get).Keeps record (make result) := by
  obtain ⟨fields, hfields, hencode, hdecode⟩ := h
  refine ⟨fields ++ [⟨next.name, next.shape, next.encode (get record), hnext.optional⟩],
    ?_, ?_, fun slots hslots rest => ?_⟩
  · rw [RecordFormat.field, hfields, List.map_append]
    rfl
  · simp only [RecordFormat.field, hencode, List.filterMap_append, List.filterMap_cons,
      List.filterMap_nil, Written.member?]
    cases next.encode (get record) <;> rfl
  · obtain ⟨earlier, last, rfl, hearlier, hlast⟩ := exists_append_of_forall₂ hslots
    obtain ⟨slot, _, hslot, hnil, rfl⟩ := List.forall₂_cons_left_iff.mp hlast
    cases hnil
    simp [RecordFormat.field, hdecode earlier hearlier, hnext.decode slot hslot]

theorem Keeps.complete {format : RecordFormat σ σ} {record result : σ}
    (h : format.Keeps record result) (hapart : NamedApart format.fields) :
    format.complete.Keeps record result := by
  obtain ⟨fields, hfields, hencode, hdecode⟩ := h
  intro document hrespells
  cases document
  case object members =>
    have hmembers : List.Forall₂ (FieldsRespell format.fields) (format.encode record) members :=
      hrespells
    rw [hencode] at hmembers
    have hspelled := spelled_of_fieldsRespell hapart
      (fun field hfield => hfields ▸ List.mem_map_of_mem hfield) hmembers
    rw [hfields] at hapart
    obtain ⟨slots, hslots, hfound⟩ := exists_mapM_eq_some (hspelled.exists_slot hapart)
    have hread : slots? (format.fields.map Prod.fst) (.object members) = some slots := by
      rw [← hslots, slots?, hfields, List.map_map, List.mapM_map]
      rfl
    have hvalue := hdecode slots hfound []
    rw [List.append_nil] at hvalue
    simp [RecordFormat.complete, hread, hvalue]
  all_goals cases hrespells

end RecordFormat

end ArtifactAtlas.Json
