import ArtifactAtlas.Ast
import ArtifactAtlas.Proofs.OrderedMap

/-!
# Giving the root of a tree a new path

The new path is read back from where the old one was, in either way of writing.
-/

namespace ArtifactAtlas.Ast

theorem get?_putField {node old : Json} {key : String} (h : node.get? key = some old)
    (name : String) (value : Json) (other : String) :
    (putField name value node).get? other =
      if name = other then some value else node.get? other := by
  cases node with
  | object members => exact Entries.lookup_put name other value members
  | _ => cases h

/-- A path of a legacy node is under its attributes. -/
theorem absolutePath?_eq_of_get?_eq_none {root : Json}
    (h : root.get? "absolutePath" = none) :
    absolutePath? root =
      ((root.get? "attributes").bind (·.get? "absolutePath")).bind Json.string? := by
  rw [absolutePath?, attribute?, h, Option.none_or]
  rfl

theorem absolutePath?_eq_of_get?_eq_some {root slot : Json}
    (h : root.get? "absolutePath" = some slot) : absolutePath? root = slot.string? := by
  rw [absolutePath?, attribute?, h, Option.some_or, Option.bind_some]

theorem exists_rewritePath?_eq_some {rewrite : String → Option String} {root : Json}
    {path newPath : String} (hpath : absolutePath? root = some path)
    (hrewrite : rewrite path = some newPath) :
    ∃ newRoot, rewritePath? rewrite root = some newRoot ∧
      absolutePath? newRoot = some newPath := by
  cases hslot : root.get? "absolutePath" with
  | some slot =>
      rw [absolutePath?_eq_of_get?_eq_some hslot] at hpath
      refine ⟨putField "absolutePath" (.string newPath) root, ?_, ?_⟩
      · simp [rewritePath?, hslot, hpath, hrewrite]
      · have hput := get?_putField hslot "absolutePath" (.string newPath) "absolutePath"
        rw [if_pos rfl] at hput
        rw [absolutePath?_eq_of_get?_eq_some hput]
        rfl
  | none =>
      rw [absolutePath?_eq_of_get?_eq_none hslot, Option.bind_eq_some_iff] at hpath
      obtain ⟨slot, hslot', hpath⟩ := hpath
      obtain ⟨attributes, hattributes, hslot'⟩ := Option.bind_eq_some_iff.mp hslot'
      refine ⟨putField "attributes"
        (putField "absolutePath" (.string newPath) attributes) root, ?_, ?_⟩
      · simp [rewritePath?, hslot, hattributes, hslot', hpath, hrewrite]
      · rw [absolutePath?_eq_of_get?_eq_none]
        · rw [get?_putField hattributes, if_pos rfl, Option.bind_some,
            get?_putField hslot', if_pos rfl]
          rfl
        · rw [get?_putField hattributes, if_neg (by decide), hslot]

end ArtifactAtlas.Ast
