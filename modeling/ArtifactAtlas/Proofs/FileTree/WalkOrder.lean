import ArtifactAtlas.Proofs.FileTree.Walks
import Mathlib.Data.List.Sort

/-!
# The order of a walk

A walk takes the entries of each directory in the order of their names and lists what is
below a directory where its name comes.  So of two files that it lists, the one with the
smaller name where their paths part comes first.  This order and what is listed fix the
list, hence only the directories that a walk comes to can make a difference to it.
-/

namespace ArtifactAtlas

open ArtifactAtlas.Path (Component)

namespace Path

/-- Where the two paths part, the first goes on with the smaller name. -/
def PartsBefore (path next : Path) : Prop :=
  ∃ (front : List Component) (name other : String) (back rest : List Component),
    path.components = front ++ .name name :: back ∧
      next.components = front ++ .name other :: rest ∧ name < other

theorem PartsBefore.lt {path next : Path} (h : path.PartsBefore next) :
    path.components < next.components := by
  obtain ⟨front, name, other, back, rest, hpath, hnext, hlt⟩ := h
  rw [hpath, hnext]
  clear hpath hnext
  induction front with
  | nil => exact List.cons_lt_cons_iff.mpr (.inl (.inr ⟨rfl, hlt⟩))
  | cons first front ih => exact List.cons_lt_cons_iff.mpr (.inr ⟨rfl, ih⟩)

theorem PartsBefore.components_ne {path next : Path} (h : path.PartsBefore next) :
    path.components ≠ next.components := by
  intro heq
  exact KeyOrder.irrefl _ (heq ▸ h.lt)

instance : Std.Irrefl PartsBefore where
  irrefl _ h := h.components_ne rfl

instance : Std.Antisymm PartsBefore where
  antisymm _ _ h hother := absurd (KeyOrder.trans h.lt hother.lt) (KeyOrder.irrefl _)

/-- Two ways down from one directory part there if their first names differ. -/
theorem partsBefore_descend {base : Path} {name other : String} {names others : List String}
    (hnames : ∀ text ∈ name :: names, FileTree.Node.IsName text)
    (hothers : ∀ text ∈ other :: others, FileTree.Node.IsName text) (hlt : name < other) :
    (base.descend (name :: names)).PartsBefore (base.descend (other :: others)) :=
  ⟨base.components, name, other, names.map .name, others.map .name,
    components_descend hnames base, components_descend hothers base, hlt⟩

end Path

namespace FileTree

namespace Node

theorem exists_directory_of_nodeAt? {front back : List String} {name : String}
    {node found : Node} (h : nodeAt? (front ++ name :: back) node = some found) :
    ∃ entries, nodeAt? front node = some (.directory entries) := by
  induction front generalizing node with
  | nil =>
      cases node with
      | file content => cases eq_nil_of_nodeAt?_file h
      | directory entries => exact ⟨entries, rfl⟩
  | cons first front ih =>
      rw [List.cons_append, nodeAt?_cons, Option.bind_eq_some_iff] at h
      obtain ⟨child, hchild, hfound⟩ := h
      rw [nodeAt?_cons, hchild]
      exact ih hfound

/-! ## Walks in order -/

-- One case for each kind of node; the entries of a directory are in order themselves.
mutual

theorem pairwise_walk {enters : Path → Bool} {here : Path} :
    ∀ {node : Node}, node.WellFormed → (node.walk enters here).Pairwise Path.PartsBefore
  | file _, _ => List.pairwise_singleton _ _
  | directory _, hnode => pairwise_walkEach hnode.1 hnode.2

theorem pairwise_walkEach {enters : Path → Bool} {base : Path} :
    ∀ {entries : List (String × Node)}, Entries.Sorted entries → AllWellFormed entries →
      (walkEach enters base entries).Pairwise Path.PartsBefore
  | [], _, _ => List.Pairwise.nil
  | (name, node) :: rest, hsorted, hentries => by
      obtain ⟨hfirst, hrest⟩ := List.pairwise_cons.mp hsorted
      rw [walkEach, List.pairwise_append]
      refine ⟨?_, pairwise_walkEach hrest hentries.2.2, ?_⟩
      · split
        case isTrue => exact pairwise_walk hentries.2.1
        case isFalse => exact List.Pairwise.nil
      · intro path hpath next hnext
        obtain ⟨names, content, hfile, -, rfl⟩ :=
          (mem_entry_iff (mem_walk_iff hentries.2.1)).mp hpath
        obtain ⟨other, child, others, content', hmem, hfile', -, rfl⟩ :=
          (mem_walkEach_iff hentries.2.2).mp hnext
        have hchild := hentries.2.2.of_mem hmem
        refine Path.partsBefore_descend ?_ ?_ (hfirst _ hmem)
        · exact List.forall_mem_cons.mpr ⟨hentries.1, isName_of_nodeAt? hentries.2.1 hfile⟩
        · exact List.forall_mem_cons.mpr ⟨hchild.1, isName_of_nodeAt? hchild.2 hfile'⟩

end

variable {enters other : Path → Bool} {here : Path} {node : Node}

/-- On the way to what there is, only directories are asked whether they are entered. -/
theorem entered_congr
    (h : ∀ folders entries, folders ≠ [] → nodeAt? folders node = some (.directory entries) →
      enters (here.descend folders) = other (here.descend folders))
    {names : List String} {found : Node} (hfound : nodeAt? names node = some found) :
    Entered enters here names ↔ Entered other here names := by
  have hsame : ∀ front name back, names = front ++ name :: back → front ≠ [] →
      enters (here.descend front) = other (here.descend front) := by
    rintro front name back rfl hne
    obtain ⟨entries, hentries⟩ := exists_directory_of_nodeAt? hfound
    exact h front entries hne hentries
  constructor
  · intro hentered front name back heq hne
    rw [← hsame front name back heq hne]
    exact hentered front name back heq hne
  · intro hentered front name back heq hne
    rw [hsame front name back heq hne]
    exact hentered front name back heq hne

theorem walk_congr (hnode : node.WellFormed)
    (h : ∀ folders entries, folders ≠ [] → nodeAt? folders node = some (.directory entries) →
      enters (here.descend folders) = other (here.descend folders)) :
    node.walk enters here = node.walk other here := by
  refine (pairwise_walk hnode).eq_of_mem_iff (pairwise_walk hnode) fun path => ?_
  rw [mem_walk_iff hnode, mem_walk_iff hnode]
  refine exists_congr fun names => exists_congr fun content => and_congr_right fun hfile => ?_
  rw [entered_congr h hfile]

end Node

variable {tree : FileTree}

theorem jsonFiles_eq {top : Path} {node : Node} (hnode : tree.node? top = some node)
    (skip : Path → Bool) :
    tree.jsonFiles top skip =
      .ok ((node.walk (fun folder => !skip folder) top).filter (·.extension? = some "json")) := by
  obtain ⟨place, hfind, rfl⟩ := toOption_map_eq_some_iff.mp hnode
  rw [jsonFiles, hfind]
  rfl

/--
The search for JSON files of a directory finds those below it with no directory to skip on
the way down, each once and in the order of a walk.  Only on directories below the one
that is searched does it matter what is to be skipped.
-/
theorem jsonFiles_lists_files_not_skipped_in_order (htree : tree.root.WellFormed) {top : Path}
    {entries : List (String × Node)} (htop : tree.node? top = some (.directory entries)) :
    (∀ skip, ∃ paths, tree.jsonFiles top skip = .ok paths ∧
      (∀ path, path ∈ paths ↔ ∃ names content,
        nodeAt? names (.directory entries) = some (.file content) ∧
        Node.Entered (fun folder => !skip folder) top names ∧
        path = top.descend names ∧ path.extension? = some "json") ∧
      (paths.map (·.components)).Nodup ∧ paths.Pairwise Path.PartsBefore) ∧
    ∀ skip other,
      (∀ folders inner, folders ≠ [] →
        nodeAt? folders (.directory entries) = some (.directory inner) →
        skip (top.descend folders) = other (top.descend folders)) →
      tree.jsonFiles top skip = tree.jsonFiles top other := by
  have hnode := wellFormed_of_node? htree htop
  refine ⟨fun skip => ⟨_, jsonFiles_eq htop skip, fun path => ?_, ?_⟩, fun skip other h => ?_⟩
  · rw [List.mem_filter, Node.mem_walk_iff hnode, decide_eq_true_iff]
    constructor
    · rintro ⟨⟨names, content, hfile, hentered, heq⟩, hextension⟩
      exact ⟨names, content, hfile, hentered, heq, hextension⟩
    · rintro ⟨names, content, hfile, hentered, heq, hextension⟩
      exact ⟨⟨names, content, hfile, hentered, heq⟩, hextension⟩
  · have horder : ((Node.directory entries).walk (fun folder => !skip folder) top).Pairwise
        Path.PartsBefore := Node.pairwise_walk hnode
    refine ⟨?_, horder.filter _⟩
    rw [List.Nodup, List.pairwise_map]
    exact (horder.filter _).imp Path.PartsBefore.components_ne
  · rw [jsonFiles_eq htop, jsonFiles_eq htop, Node.walk_congr hnode]
    intro folders inner hne hinner
    rw [h folders inner hne hinner]

/-- A directory to skip, a file of the same name, and files without the extension. -/
def cachedEntries : List (String × Node) :=
  let file := Node.file .empty
  [("A.json", file),
    ("cache.json", .directory [("B.json", file)]),
    ("lib", .directory [(".json", file), ("cache.json", file), ("notes.txt", file)])]

/-- The directory with these entries has a name that is to be skipped, too. -/
def cachedProject : FileTree :=
  { root := .directory [("cache.json", .directory cachedEntries)] }

def isCache (folder : Path) : Bool :=
  folder.fileName? = some "cache.json"

theorem cachedProject_lists_files_not_in_cache :
    cachedProject.root.WellFormed ∧
    cachedProject.node? ⟨"/cache.json"⟩ = some (.directory cachedEntries) ∧
    cachedProject.jsonFiles ⟨"/cache.json"⟩ isCache =
      .ok [⟨"/cache.json/A.json"⟩, ⟨"/cache.json/lib/cache.json"⟩] ∧
    Path.PartsBefore ⟨"/cache.json/A.json"⟩ ⟨"/cache.json/lib/cache.json"⟩ ∧
    ¬ Node.Entered (fun folder => !isCache folder) ⟨"/cache.json"⟩ ["cache.json", "B.json"] := by
  have htree : cachedProject.root.WellFormed := by decide +kernel
  have htop : cachedProject.node? ⟨"/cache.json"⟩ = some (.directory cachedEntries) := rfl
  have hlisted : cachedProject.jsonFiles ⟨"/cache.json"⟩ isCache =
      .ok [⟨"/cache.json/A.json"⟩, ⟨"/cache.json/lib/cache.json"⟩] := by decide +kernel
  obtain ⟨paths, hpaths, hmem, -, horder⟩ :=
    (jsonFiles_lists_files_not_skipped_in_order htree htop).1 isCache
  obtain rfl := Except.ok.inj (hlisted.symm.trans hpaths)
  refine ⟨htree, htop, hlisted, List.rel_of_pairwise_cons horder (by simp), fun hentered => ?_⟩
  have hskipped := (hmem (.descend ⟨"/cache.json"⟩ ["cache.json", "B.json"])).mpr
    ⟨_, _, rfl, hentered, rfl, by decide +kernel⟩
  revert hskipped
  decide +kernel

end FileTree

end ArtifactAtlas
