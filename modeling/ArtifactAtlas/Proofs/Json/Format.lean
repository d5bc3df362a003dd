import ArtifactAtlas.Json.MapFormat
import ArtifactAtlas.Proofs.OrderedMap

/-!
# Reading in another format

A document that is written in one format can be read in another one, which takes
what it knows from it.  When it does so for items it does so for lists of them and
for maps to them.
-/

namespace ArtifactAtlas

namespace OrderedMap

theorem mapValues_id' {κ ν : Type} [LT κ] (map : OrderedMap κ ν) :
    (map.mapValues fun _ value => value) = map :=
  ext (List.map_id' map.toList)

end OrderedMap

namespace Json.Format

variable {α β : Type} {written : Format α} {reader : Format β} {f : α → β}

/-- What `written` writes is read by `reader`, and `f` says as what. -/
def Yields (written : Format α) (reader : Format β) (f : α → β) : Prop :=
  ∀ value, reader.decode (written.encode value) = some (f value)

theorem mapM_map_eq_some {γ δ ε : Type} (encode : γ → δ) (decode : δ → Option ε) (g : γ → ε)
    (h : ∀ value, decode (encode value) = some (g value)) (values : List γ) :
    (values.map encode).mapM decode = some (values.map g) := by
  induction values with
  | nil => rfl
  | cons value rest ih => simp [List.mapM_cons, h value, ih]

theorem text_yields : Yields text text id := fun _ => rfl

theorem Yields.list (h : Yields written reader f) :
    Yields (list written) (list reader) (List.map f) :=
  mapM_map_eq_some written.encode reader.decode f h

theorem Yields.mapping (h : Yields written reader f) :
    Yields (mapping written) (mapping reader) (OrderedMap.mapValues fun _ => f) := by
  intro map
  have hmembers := mapM_map_eq_some
    (fun entry : String × α => (entry.1, written.encode entry.2))
    (fun member => (reader.decode member.2).map (member.1, ·))
    (fun entry => (entry.1, f entry.2)) (fun entry => by simp [h entry.2]) map.toList
  change Option.map _ (List.mapM _ _) = _
  rw [hmembers, Option.map_some, OrderedMap.ofList_map_entries map fun _ => f]

end Json.Format

end ArtifactAtlas
