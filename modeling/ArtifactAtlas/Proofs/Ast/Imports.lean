import ArtifactAtlas.Ast
import Mathlib.Data.List.Forall2

/-!
# Imports of trees in either way of writing

A node is read alike in both ways of writing: its type, its path and its children come from
different members.  So the imports of a tree do not depend on how it is written.  They are
the paths of its import directives, without those in another import directive.
-/

namespace ArtifactAtlas.Ast

/-! ## Reading nodes -/

theorem importPathsUnder_eq (name : String) (members : List (String × Json)) :
    importPathsUnder name members =
      ((Entries.lookup name members).map importPaths).getD [] := by
  induction members with
  | nil => rw [importPathsUnder, Entries.lookup]; rfl
  | cons entry rest ih =>
      obtain ⟨key, node⟩ := entry
      rw [importPathsUnder, Entries.lookup]
      split
      case isTrue => rfl
      case isFalse => exact ih

theorem importPaths_of_import {members : List (String × Json)}
    (h : nodeType? members = some "ImportDirective") :
    importPaths (.object members) = (absolutePath? (.object members)).toList := by
  rw [importPaths, if_pos h]

theorem importPaths_of_not_import {members : List (String × Json)}
    (h : nodeType? members ≠ some "ImportDirective") :
    importPaths (.object members) =
      ((Entries.lookup "nodes" members).map importPaths).getD [] ++
        ((Entries.lookup "children" members).map importPaths).getD [] := by
  rw [importPaths, if_neg h, importPathsUnder_eq, importPathsUnder_eq]

/-! ## Trees -/

/-- A syntax tree, apart from how it is written: each node has the name of its type, perhaps
a path, and children in order. -/
inductive Tree where
  | node (kind : String) (path : Option String) (children : List Tree)

namespace Tree

def kind : Tree → String
  | node kind _ _ => kind

def path : Tree → Option String
  | node _ path _ => path

mutual

/-- The nodes of a tree, each before those in it and with the types of the nodes around it. -/
def preorder (around : List String) : Tree → List (List String × Tree)
  | node kind path children =>
      (around, node kind path children) :: preorderEach (kind :: around) children

def preorderEach (around : List String) : List Tree → List (List String × Tree)
  | [] => []
  | tree :: rest => tree.preorder around ++ preorderEach around rest

end

/-- The paths of those import directives that have no import directive around them. -/
def outerImports (nodes : List (List String × Tree)) : List String :=
  (nodes.filter fun (around, tree) =>
    tree.kind = "ImportDirective" ∧ "ImportDirective" ∉ around).filterMap (·.2.path)

def imports (tree : Tree) : List String :=
  outerImports (tree.preorder [])

theorem outerImports_append (nodes others : List (List String × Tree)) :
    outerImports (nodes ++ others) = outerImports nodes ++ outerImports others := by
  simp [outerImports]

-- One case for a node, and one for each child.
mutual

theorem outerImports_preorder_of_mem {around : List String}
    (h : "ImportDirective" ∈ around) : ∀ tree : Tree, outerImports (tree.preorder around) = []
  | node kind path children => by
      have hchildren := outerImports_preorderEach_of_mem
        (List.mem_cons_of_mem kind h) children
      rw [preorder, outerImports, List.filter_cons, if_neg (by simp [h])]
      exact hchildren

theorem outerImports_preorderEach_of_mem {around : List String}
    (h : "ImportDirective" ∈ around) :
    ∀ trees : List Tree, outerImports (preorderEach around trees) = []
  | [] => rfl
  | tree :: rest => by
      rw [preorderEach, outerImports_append, outerImports_preorder_of_mem h tree,
        outerImports_preorderEach_of_mem h rest]
      rfl

end

/-- The step: an import directive stands for itself alone, another node for its children. -/
theorem outerImports_preorder {around : List String} (h : "ImportDirective" ∉ around)
    (kind : String) (path : Option String) (children : List Tree) :
    outerImports ((node kind path children).preorder around) =
      if kind = "ImportDirective" then path.toList
      else outerImports (preorderEach (kind :: around) children) := by
  rw [preorder, outerImports, List.filter_cons]
  by_cases hkind : kind = "ImportDirective"
  · have hinner : outerImports (preorderEach (kind :: around) children) = [] :=
      outerImports_preorderEach_of_mem (by simp [hkind]) children
    rw [outerImports] at hinner
    rw [if_pos (by simp [Tree.kind, hkind, h]), if_pos hkind, List.filterMap_cons, hinner]
    cases path <;> rfl
  · rw [if_neg (by simp [Tree.kind, hkind]), if_neg hkind]
    rfl

end Tree

/-! ## Ways of writing -/

inductive Form where
  | compact
  | legacy

/-- What the members of an object say in some way of writing of a node: its type, its path,
which may be missing or `null`, and its children.  Nothing else of them matters, such as the
name of a compact node. -/
inductive Shows (members : List (String × Json)) (kind : String) (path : Option String)
    (children : List Json) : Form → Prop
  | compact (hkind : Entries.lookup "nodeType" members = some (.string kind))
      (hpath : (Entries.lookup "absolutePath" members).bind Json.present? = path.map .string)
      (hattributes : (Json.object members).path? ["attributes", "absolutePath"] = none)
      (hnodes : (Entries.lookup "nodes" members).getD (.array []) = .array children)
      (hchildren : Entries.lookup "children" members = none) :
      Shows members kind path children .compact
  | legacy (htype : Entries.lookup "nodeType" members = none)
      (hkind : Entries.lookup "name" members = some (.string kind))
      (hfield : Entries.lookup "absolutePath" members = none)
      (hpath : ((Json.object members).path? ["attributes", "absolutePath"]).bind
        Json.present? = path.map .string)
      (hnodes : Entries.lookup "nodes" members = none)
      (hchildren : (Entries.lookup "children" members).getD (.array []) = .array children) :
      Shows members kind path children .legacy

/-- Whether a value is a tree in some way of writing, down to its leaves. -/
inductive Written (form : Form) : Tree → Json → Prop
  | node {members : List (String × Json)} {kind : String} {path : Option String}
      {children : List Tree} {items : List Json} (hshows : Shows members kind path items form)
      (hchildren : List.Forall₂ (Written form) children items) :
      Written form (.node kind path children) (.object members)

variable {members : List (String × Json)} {kind : String} {path : Option String}
  {children : List Json} {form : Form}

theorem string?_of_present? {slot : Option Json}
    (h : slot.bind Json.present? = path.map .string) : slot.bind Json.string? = path := by
  cases slot with
  | none => cases path <;> simp_all
  | some value => cases value <;> cases path <;> simp_all [Json.present?, Json.isNull, Json.string?]

theorem importPaths_getD {slot : Option Json} (h : slot.getD (.array []) = .array children) :
    (slot.map importPaths).getD [] = importPathsEach children := by
  cases slot with
  | none =>
      cases h
      rw [importPathsEach]
      rfl
  | some value =>
      obtain rfl : value = .array children := h
      rw [Option.map_some, Option.getD_some, importPaths]

namespace Shows

theorem nodeType?_eq (h : Shows members kind path children form) :
    nodeType? members = some kind := by
  cases h with
  | compact hkind => rw [nodeType?, hkind]; rfl
  | legacy htype hkind => rw [nodeType?, htype, hkind]; rfl

theorem absolutePath?_eq (h : Shows members kind path children form) :
    absolutePath? (.object members) = path := by
  cases h with
  | compact _ hpath hattributes =>
      rw [absolutePath?, attribute?, hattributes, Option.or_none]
      exact string?_of_present? hpath
  | legacy _ _ hfield hpath =>
      rw [absolutePath?, attribute?, Json.get?, hfield, Option.none_or]
      exact string?_of_present? hpath

theorem importPaths_eq (h : Shows members kind path children form) :
    importPaths (.object members) =
      if kind = "ImportDirective" then path.toList else importPathsEach children := by
  by_cases hkind : kind = "ImportDirective"
  · rw [if_pos hkind, importPaths_of_import (by rw [h.nodeType?_eq, hkind]),
      h.absolutePath?_eq]
  · rw [if_neg hkind, importPaths_of_not_import (by simpa [h.nodeType?_eq] using hkind)]
    cases h with
    | compact _ _ _ hnodes hchildren =>
        rw [importPaths_getD hnodes, hchildren, Option.map_none, Option.getD_none,
          List.append_nil]
    | legacy _ _ _ _ hnodes hchildren =>
        rw [importPaths_getD hchildren, hnodes, Option.map_none, Option.getD_none,
          List.nil_append]

end Shows

namespace Written

theorem absolutePath?_eq {tree : Tree} {json : Json} (h : Written form tree json) :
    absolutePath? json = tree.path := by
  cases h with
  | node hshows => exact hshows.absolutePath?_eq

-- Around the nodes that are read there is no import directive, as reading stops at these.
mutual

theorem importPaths_eq {around : List String} (haround : "ImportDirective" ∉ around) :
    ∀ {tree : Tree} {json : Json}, Written form tree json →
      importPaths json = Tree.outerImports (tree.preorder around)
  | .node kind path children, _, .node hshows hchildren => by
      rw [hshows.importPaths_eq, Tree.outerImports_preorder haround]
      by_cases hkind : kind = "ImportDirective"
      · rw [if_pos hkind, if_pos hkind]
      · rw [if_neg hkind, if_neg hkind]
        exact importPathsEach_eq (by simpa using ⟨Ne.symm hkind, haround⟩) hchildren

theorem importPathsEach_eq {around : List String} (haround : "ImportDirective" ∉ around) :
    ∀ {trees : List Tree} {items : List Json}, List.Forall₂ (Written form) trees items →
      importPathsEach items = Tree.outerImports (Tree.preorderEach around trees)
  | [], _, .nil => by rw [importPathsEach]; rfl
  | tree :: rest, _, .cons htree hrest => by
      rw [importPathsEach, Tree.preorderEach, Tree.outerImports_append,
        importPaths_eq haround htree, importPathsEach_eq haround hrest]

end

end Written

theorem exists_shows (kind : String) (path : Option String) (children : List Json)
    (form : Form) : ∃ members, Shows members kind path children form := by
  obtain ⟨slot, hpath⟩ : ∃ slot : Json, slot.present? = path.map .string :=
    ⟨(path.map .string).getD .null, by cases path <;> rfl⟩
  cases form with
  | compact =>
      exact ⟨[("nodeType", .string kind), ("absolutePath", slot), ("nodes", .array children)],
        .compact rfl hpath rfl rfl rfl⟩
  | legacy =>
      exact ⟨[("name", .string kind), ("attributes", .object [("absolutePath", slot)]),
        ("children", .array children)], .legacy rfl rfl rfl hpath rfl rfl⟩

mutual

theorem exists_written (form : Form) : ∀ tree : Tree, ∃ json, Written form tree json
  | .node kind path children => by
      obtain ⟨items, hchildren⟩ := exists_forall₂_written form children
      obtain ⟨members, hshows⟩ := exists_shows kind path items form
      exact ⟨_, .node hshows hchildren⟩

theorem exists_forall₂_written (form : Form) :
    ∀ trees : List Tree, ∃ items, List.Forall₂ (Written form) trees items
  | [] => ⟨[], .nil⟩
  | tree :: rest => by
      obtain ⟨json, htree⟩ := exists_written form tree
      obtain ⟨items, hrest⟩ := exists_forall₂_written form rest
      exact ⟨json :: items, .cons htree hrest⟩

end

/--
Each tree can be written in either way.  From both the same imports are read, the paths of
the import directives that are in no other one, in preorder; and the same path of the root.
-/
theorem imports_do_not_depend_on_form (tree : Tree) :
    (∀ form, ∃ json, Written form tree json) ∧
    ∀ compact legacy, Written .compact tree compact → Written .legacy tree legacy →
      importPaths compact = importPaths legacy ∧ importPaths legacy = tree.imports ∧
      absolutePath? compact = absolutePath? legacy ∧ absolutePath? legacy = tree.path := by
  refine ⟨fun form => exists_written form tree, fun compact legacy hcompact hlegacy => ?_⟩
  have hnone : "ImportDirective" ∉ ([] : List String) := List.not_mem_nil
  have himports : importPaths legacy = tree.imports := hlegacy.importPaths_eq hnone
  refine ⟨(hcompact.importPaths_eq hnone).trans himports.symm, himports, ?_,
    hlegacy.absolutePath?_eq⟩
  rw [hcompact.absolutePath?_eq, hlegacy.absolutePath?_eq]

/-- Imports one after the other, one in another and one below a definition. -/
def nestedImports : Tree :=
  .node "SourceUnit" (some "/p/A.sol") [
    .node "ImportDirective" (some "/p/B.sol") [.node "ImportDirective" (some "/p/X.sol") []],
    .node "ContractDefinition" none [.node "ImportDirective" (some "/p/C.sol") []],
    .node "ImportDirective" none []]

/-- The definition has the name of another type, and leaves lack their children. -/
def nestedImportsCompact : Json :=
  .object [("absolutePath", .string "/p/A.sol"), ("nodeType", .string "SourceUnit"),
    ("nodes", .array [
      .object [("nodeType", .string "ImportDirective"), ("absolutePath", .string "/p/B.sol"),
        ("nodes", .array [.object [("nodeType", .string "ImportDirective"),
          ("absolutePath", .string "/p/X.sol")]])],
      .object [("name", .string "ImportDirective"), ("nodeType", .string "ContractDefinition"),
        ("nodes", .array [.object [("nodeType", .string "ImportDirective"),
          ("absolutePath", .string "/p/C.sol"), ("nodes", .array [])]])],
      .object [("nodeType", .string "ImportDirective"), ("absolutePath", .null)]])]

def nestedImportsLegacy : Json :=
  .object [("name", .string "SourceUnit"),
    ("attributes", .object [("absolutePath", .string "/p/A.sol")]),
    ("children", .array [
      .object [("name", .string "ImportDirective"),
        ("attributes", .object [("absolutePath", .string "/p/B.sol")]),
        ("children", .array [.object [("name", .string "ImportDirective"),
          ("attributes", .object [("absolutePath", .string "/p/X.sol")])]])],
      .object [("name", .string "ContractDefinition"), ("attributes", .object []),
        ("children", .array [.object [("name", .string "ImportDirective"),
          ("attributes", .object [("absolutePath", .string "/p/C.sol")])]])],
      .object [("name", .string "ImportDirective")]])]

theorem nestedImports_are_read_alike :
    Written .compact nestedImports nestedImportsCompact ∧
    Written .legacy nestedImports nestedImportsLegacy ∧
    importPaths nestedImportsCompact = ["/p/B.sol", "/p/C.sol"] ∧
    importPaths nestedImportsLegacy = ["/p/B.sol", "/p/C.sol"] := by
  have hcompact : Written .compact nestedImports nestedImportsCompact :=
    .node (.compact rfl rfl rfl rfl rfl)
      (.cons (.node (.compact rfl rfl rfl rfl rfl)
        (.cons (.node (.compact rfl rfl rfl rfl rfl) .nil) .nil))
      (.cons (.node (.compact rfl rfl rfl rfl rfl)
        (.cons (.node (.compact rfl rfl rfl rfl rfl) .nil) .nil))
      (.cons (.node (.compact rfl rfl rfl rfl rfl) .nil) .nil)))
  have hlegacy : Written .legacy nestedImports nestedImportsLegacy :=
    .node (.legacy rfl rfl rfl rfl rfl rfl)
      (.cons (.node (.legacy rfl rfl rfl rfl rfl rfl)
        (.cons (.node (.legacy rfl rfl rfl rfl rfl rfl) .nil) .nil))
      (.cons (.node (.legacy rfl rfl rfl rfl rfl rfl)
        (.cons (.node (.legacy rfl rfl rfl rfl rfl rfl) .nil) .nil))
      (.cons (.node (.legacy rfl rfl rfl rfl rfl rfl) .nil) .nil)))
  obtain ⟨hsame, himports, -⟩ :=
    (imports_do_not_depend_on_form nestedImports).2 _ _ hcompact hlegacy
  have hread : nestedImports.imports = ["/p/B.sol", "/p/C.sol"] := by decide
  rw [hsame, himports, hread]
  exact ⟨hcompact, hlegacy, rfl, rfl⟩

end ArtifactAtlas.Ast
