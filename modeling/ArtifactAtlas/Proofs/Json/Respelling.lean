import ArtifactAtlas.Json.Shape
import ArtifactAtlas.Json.Value
import Mathlib.Data.List.Forall2

/-!
# Other names for fields

A field may be given under each of its names.  A document is respelled when fields are
given under other names of theirs, here and there and at any depth; where a shape takes
any value there are no fields, and nothing changes.
-/

namespace ArtifactAtlas.Json

mutual

/-- Whether two documents of a shape differ only in the names that fields of records are
given under. -/
def Shape.Respells : Shape → Json → Json → Prop
  | .optional shape, document, other => shape.Respells document other
  | .list item, .array items, .array others => List.Forall₂ item.Respells items others
  | .mapping item, .object members, .object others =>
      List.Forall₂ (fun member other => member.1 = other.1 ∧ item.Respells member.2 other.2)
        members others
  | .numbered item, .object members, .object others =>
      List.Forall₂ (fun member other => member.1 = other.1 ∧ item.Respells member.2 other.2)
        members others
  | .record fields, .object members, .object others =>
      List.Forall₂ (FieldsRespell fields) members others
  | _, document, other => document = other

/-- Whether two members of a record are one, but for the name of the field. -/
def FieldsRespell : List (FieldName × Shape) → String × Json → String × Json → Prop
  | [], member, other => member = other
  | (field, shape) :: fields, member, other =>
      (field.accepts member.1 = true ∧ field.accepts other.1 = true ∧
        shape.Respells member.2 other.2) ∨ FieldsRespell fields member other

end

theorem fieldsRespell_iff {fields : List (FieldName × Shape)} {member other : String × Json} :
    FieldsRespell fields member other ↔
      member = other ∨ ∃ field ∈ fields, field.1.accepts member.1 = true ∧
        field.1.accepts other.1 = true ∧ field.2.Respells member.2 other.2 := by
  induction fields with
  | nil => simp [FieldsRespell]
  | cons field fields ih =>
      simp only [FieldsRespell, ih, List.exists_mem_cons_iff]
      exact or_left_comm

theorem Shape.respells_refl : ∀ (shape : Shape) (document : Json),
    shape.Respells document document
  | .ignored, _ | .any, _ | .text, _ | .natural, _ => rfl
  | .optional shape, document => respells_refl shape document
  | .list item, document => by
      cases document
      case array => exact List.forall₂_same.mpr fun value _ => respells_refl item value
      all_goals rfl
  | .mapping item, document => by
      cases document
      case object => exact List.forall₂_same.mpr fun member _ => ⟨rfl, respells_refl item member.2⟩
      all_goals rfl
  | .numbered item, document => by
      cases document
      case object => exact List.forall₂_same.mpr fun member _ => ⟨rfl, respells_refl item member.2⟩
      all_goals rfl
  | .record _, document => by
      cases document
      case object => exact List.forall₂_same.mpr fun _ _ => fieldsRespell_iff.mpr (.inl rfl)
      all_goals rfl

/-- Only `null` is respelled as `null`, and as nothing else. -/
theorem Shape.Respells.eq_null_iff : ∀ {shape : Shape} {document other : Json},
    shape.Respells document other → (document = .null ↔ other = .null)
  | .optional shape, _, _, h => @eq_null_iff shape _ _ h
  | .ignored, _, _, h | .any, _, _, h | .text, _, _, h | .natural, _, _, h => by
      rw [show _ = _ from h]
  | .list _, document, other, h | .mapping _, document, other, h
  | .numbered _, document, other, h | .record _, document, other, h => by
      cases document <;> cases other <;> first | (simp; done) | cases h

end ArtifactAtlas.Json
