import ArtifactAtlas.Proofs.Ast
import ArtifactAtlas.Proofs.Ast.Imports

/-!
# What a new path leaves as it was

The path of a root is written where it is read: among the members or, if there is none,
under the attributes.  The new tree has the new path there and does not differ otherwise.
So nothing that is read elsewhere changes, and the imports do not unless the root is one.
-/

namespace ArtifactAtlas

theorem Entries.exists_place_of_lookup {κ ν : Type} [DecidableEq κ] {key : κ} {value : ν}
    {entries : List (κ × ν)} (h : lookup key entries = some value) :
    ∃ front back, key ∉ front.map Prod.fst ∧ entries = front ++ (key, value) :: back ∧
      ∀ other, put key other entries = front ++ (key, other) :: back := by
  induction entries with
  | nil => cases h
  | cons head rest ih =>
      obtain ⟨first, found⟩ := head
      rw [lookup] at h
      split at h
      case isTrue heq =>
        cases h
        subst heq
        exact ⟨[], rest, by simp, rfl, fun other => by rw [put, if_pos rfl]; rfl⟩
      case isFalse hne =>
        obtain ⟨front, back, hfront, rfl, hput⟩ := ih h
        refine ⟨(first, found) :: front, back, ?_, rfl, fun other => ?_⟩
        · simpa using ⟨Ne.symm hne, by simpa using hfront⟩
        · rw [put, if_neg hne, hput]
          rfl

namespace Json

/-- The second value has `new` where the first has `old`, at the end of a way of members, and
they do not differ otherwise. -/
inductive DiffersAt (old new : Json) : List String → Json → Json → Prop
  | here : DiffersAt old new [] old new
  | under {name : String} {way : List String} {value other : Json}
      {front back : List (String × Json)} (hfirst : name ∉ front.map Prod.fst)
      (h : DiffersAt old new way value other) :
      DiffersAt old new (name :: way) (.object (front ++ (name, value) :: back))
        (.object (front ++ (name, other) :: back))

variable {old new node newNode : Json} {name : String} {way : List String}

/-- The members of other names are the same. -/
theorem DiffersAt.get?_of_ne (h : DiffersAt old new (name :: way) node newNode)
    {other : String} (hne : other ≠ name) : newNode.get? other = node.get? other := by
  cases h with
  | under =>
      simp only [get?, Entries.lookup_append, Entries.lookup, if_neg hne.symm]

theorem DiffersAt.putField {value other : Json} (hvalue : node.get? name = some value)
    (h : DiffersAt old new way value other) :
    DiffersAt old new (name :: way) node (Ast.putField name other node) := by
  cases node with
  | object members =>
      obtain ⟨front, back, hfirst, rfl, hput⟩ := Entries.exists_place_of_lookup hvalue
      rw [Ast.putField, hput]
      exact .under hfirst h
  | _ => cases hvalue

theorem string?_eq_some_iff {value : Json} {text : String} :
    value.string? = some text ↔ value = .string text := by
  cases value <;> simp [string?]

end Json

namespace Ast

open Json (DiffersAt)

variable {rewrite : String → Option String} {root newRoot : Json}

/-- Where a root has its path. -/
def pathPlace (root : Json) : List String :=
  if (root.get? "absolutePath").isSome then ["absolutePath"] else ["attributes", "absolutePath"]

/-- Whether the root of a tree is an import directive. -/
def IsImport (root : Json) : Prop :=
  ((root.get? "nodeType").or (root.get? "name")).bind Json.string? = some "ImportDirective"

/-- The step: a new path is put in the place of the old one. -/
theorem differsAt_of_rewritePath? (h : rewritePath? rewrite root = some newRoot) :
    ∃ path newPath, absolutePath? root = some path ∧ rewrite path = some newPath ∧
      DiffersAt (.string path) (.string newPath) (pathPlace root) root newRoot := by
  cases hslot : root.get? "absolutePath" with
  | some slot =>
      simp only [rewritePath?, hslot, Option.bind_eq_bind, Option.bind_eq_some_iff,
        Json.string?_eq_some_iff, Option.pure_def, Option.some.injEq] at h
      obtain ⟨newPath, ⟨path, rfl, hrewrite⟩, rfl⟩ := h
      refine ⟨path, newPath, ?_, hrewrite, ?_⟩
      · rw [absolutePath?_eq_of_get?_eq_some hslot]
        rfl
      · rw [pathPlace, hslot]
        exact .putField hslot .here
  | none =>
      simp only [rewritePath?, hslot, Option.bind_eq_bind, Option.bind_eq_some_iff,
        Json.string?_eq_some_iff, Option.pure_def, Option.some.injEq] at h
      obtain ⟨attributes, hattributes, newPath, ⟨path, ⟨_, hinner, rfl⟩, hrewrite⟩, rfl⟩ := h
      refine ⟨path, newPath, ?_, hrewrite, ?_⟩
      · rw [absolutePath?_eq_of_get?_eq_none hslot, hattributes, Option.bind_some, hinner]
        rfl
      · rw [pathPlace, hslot]
        exact .putField hattributes (.putField hinner .here)

/-- Members other than those that may hold the path stay as they are. -/
theorem get?_of_rewritePath? (h : rewritePath? rewrite root = some newRoot) {name : String}
    (hpath : name ≠ "absolutePath") (hattributes : name ≠ "attributes") :
    newRoot.get? name = root.get? name := by
  obtain ⟨path, newPath, -, -, hdiffers⟩ := differsAt_of_rewritePath? h
  rw [pathPlace] at hdiffers
  split at hdiffers
  case isTrue => exact hdiffers.get?_of_ne hpath
  case isFalse => exact hdiffers.get?_of_ne hattributes

theorem fileIndex?_of_rewritePath? (h : rewritePath? rewrite root = some newRoot) :
    fileIndex? newRoot = fileIndex? root := by
  rw [fileIndex?, fileIndex?, get?_of_rewritePath? h (by decide) (by decide)]

theorem exists_members_of_rewritePath? (h : rewritePath? rewrite root = some newRoot) :
    ∃ members newMembers, root = .object members ∧ newRoot = .object newMembers := by
  obtain ⟨path, newPath, -, -, hdiffers⟩ := differsAt_of_rewritePath? h
  rw [pathPlace] at hdiffers
  split at hdiffers
  all_goals
    cases hdiffers
    exact ⟨_, _, rfl, rfl⟩

theorem isImport_of_rewritePath? (h : rewritePath? rewrite root = some newRoot) :
    IsImport newRoot ↔ IsImport root := by
  rw [IsImport, IsImport, get?_of_rewritePath? h (by decide) (by decide),
    get?_of_rewritePath? h (by decide) (by decide)]

theorem importPaths_of_rewritePath? (h : rewritePath? rewrite root = some newRoot)
    (hroot : ¬ IsImport root) : importPaths newRoot = importPaths root := by
  have hnew := (isImport_of_rewritePath? h).not.mpr hroot
  have hnodes : newRoot.get? "nodes" = root.get? "nodes" :=
    get?_of_rewritePath? h (by decide) (by decide)
  have hchildren : newRoot.get? "children" = root.get? "children" :=
    get?_of_rewritePath? h (by decide) (by decide)
  obtain ⟨members, newMembers, rfl, rfl⟩ := exists_members_of_rewritePath? h
  rw [Json.get?, Json.get?] at hnodes hchildren
  rw [importPaths_of_not_import hroot, importPaths_of_not_import hnew, hnodes, hchildren]

theorem importPaths_of_rewritePath?_of_isImport (h : rewritePath? rewrite root = some newRoot)
    (hroot : IsImport root) : importPaths newRoot = (absolutePath? newRoot).toList := by
  have hnew := (isImport_of_rewritePath? h).mpr hroot
  obtain ⟨members, newMembers, rfl, rfl⟩ := exists_members_of_rewritePath? h
  exact importPaths_of_import hnew

/--
A root gets a new path exactly if it has one that is rewritten; otherwise there is no new
root, and the old one stays.  The new path is the one that is read of the new root, and the
text of the path is all that changes.  In any case the file index stays as it was, and so do
the imports unless the root is an import directive, which then imports its new path.
-/
theorem rewriting_changes_path_alone (rewrite : String → Option String) (root : Json) :
    ((rewritePath? rewrite root).isSome ↔
      ∃ path newPath, absolutePath? root = some path ∧ rewrite path = some newPath) ∧
    (∀ newRoot, rewritePath? rewrite root = some newRoot → ∃ path newPath,
      absolutePath? root = some path ∧ rewrite path = some newPath ∧
      absolutePath? newRoot = some newPath ∧
      DiffersAt (.string path) (.string newPath) (pathPlace root) root newRoot ∧
      (IsImport root → importPaths newRoot = [newPath])) ∧
    fileIndex? ((rewritePath? rewrite root).getD root) = fileIndex? root ∧
    (¬ IsImport root →
      importPaths ((rewritePath? rewrite root).getD root) = importPaths root) := by
  refine ⟨⟨fun h => ?_, ?_⟩, fun newRoot h => ?_, ?_, fun hroot => ?_⟩
  · obtain ⟨newRoot, h⟩ := Option.isSome_iff_exists.mp h
    obtain ⟨path, newPath, hpath, hrewrite, -⟩ := differsAt_of_rewritePath? h
    exact ⟨path, newPath, hpath, hrewrite⟩
  · rintro ⟨path, newPath, hpath, hrewrite⟩
    obtain ⟨newRoot, h, -⟩ := exists_rewritePath?_eq_some hpath hrewrite
    rw [h]
    rfl
  · obtain ⟨path, newPath, hpath, hrewrite, hdiffers⟩ := differsAt_of_rewritePath? h
    obtain ⟨other, hother, hnewPath⟩ := exists_rewritePath?_eq_some hpath hrewrite
    obtain rfl : other = newRoot := Option.some.inj (hother.symm.trans h)
    refine ⟨path, newPath, hpath, hrewrite, hnewPath, hdiffers, fun hroot => ?_⟩
    rw [importPaths_of_rewritePath?_of_isImport h hroot, hnewPath]
    rfl
  · cases h : rewritePath? rewrite root with
    | none => rfl
    | some newRoot => exact fileIndex?_of_rewritePath? h
  · cases h : rewritePath? rewrite root with
    | none => rfl
    | some newRoot => exact importPaths_of_rewritePath? h hroot

/-- Of two places with a path the one among the members counts. -/
example : rewritePath? (fun _ => some "A.sol")
      (.object [("attributes", .object [("absolutePath", .string "/p/B.sol")]),
        ("absolutePath", .string "/p/A.sol"), ("src", .string "0:9:1")]) =
    some (.object [("attributes", .object [("absolutePath", .string "/p/B.sol")]),
      ("absolutePath", .string "A.sol"), ("src", .string "0:9:1")]) :=
  rfl

end Ast

end ArtifactAtlas
