import ArtifactAtlas.Json.Record

/-!
# Reading records field by field

A record format is put together one field at a time, and so is what it reads: the
members of an object give each field its value, whatever other members there are.
-/

namespace ArtifactAtlas.Json

variable {σ α β : Type}

/-- What a field takes from the members of an object. -/
def FieldFormat.ofMembers? (field : FieldFormat β) (members : List (String × Json)) :
    Option β :=
  (slot? members field.name).bind field.decode

namespace RecordFormat

variable {format : RecordFormat σ (β → α)} {members : List (String × Json)}

/-- The fields so far find their values among the members. -/
def Reads (format : RecordFormat σ α) (members : List (String × Json)) (value : α) : Prop :=
  ∃ slots, (format.fields.map Prod.fst).mapM (slot? members) = some slots ∧
    ∀ rest, format.decode (slots ++ rest) = some (value, rest)

theorem reads_start (make : α) (members : List (String × Json)) :
    Reads (start make : RecordFormat σ α) members make :=
  ⟨[], rfl, fun _ => rfl⟩

theorem Reads.field {make : β → α} (h : format.Reads members make) {field : FieldFormat β}
    {value : β} (hvalue : field.ofMembers? members = some value) (get : σ → β) :
    (format.field field get).Reads members (make value) := by
  obtain ⟨slots, hslots, hdecode⟩ := h
  obtain ⟨slot, hslot, hread⟩ := Option.bind_eq_some_iff.mp hvalue
  refine ⟨slots ++ [slot], ?_, fun rest => ?_⟩
  · simp [RecordFormat.field, List.mapM_append, hslots, hslot]
  · simp [RecordFormat.field, hdecode, hread]

theorem Reads.complete {format : RecordFormat α α} {value : α}
    (h : format.Reads members value) :
    format.complete.decode (.object members) = some value := by
  obtain ⟨slots, hslots, hdecode⟩ := h
  have hvalue := hdecode []
  rw [List.append_nil] at hvalue
  simp only [RecordFormat.complete, slots?, hslots, Option.bind_eq_bind, Option.bind_some,
    hvalue, Option.pure_def]

end RecordFormat

end ArtifactAtlas.Json
