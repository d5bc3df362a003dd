import ArtifactAtlas.Proofs.FileTree.Walks

/-!
# Sources of targets

A walk for sources goes into all directories but those of installed packages.  So a target
stands for the `.sol` files that names lead to without such a directory on the way.
-/

namespace ArtifactAtlas

open FileTree.Node (IsName)

namespace FileTree

/-- Whether a walk for sources goes into a directory: it does unless packages are in it. -/
def entersFolder (directory : Path) : Bool :=
  directory.fileName?.getD directory.text ≠ packageDirectory

theorem entersFolder_join {name : String} (h : IsName name) (base : Path) :
    entersFolder (base.join ⟨name⟩) = true ↔ name ≠ packageDirectory := by
  simp [entersFolder, Path.fileName?_join_name h]

theorem entersFolder_iff_of_isAbsolute {path : Path} (h : path.isAbsolute = true) :
    entersFolder path = true ↔ packageDirectory ∉ path.fileName?.toList := by
  have htext : path.text ≠ packageDirectory := by
    intro heq
    rw [Path.isAbsolute, heq] at h
    revert h
    decide
  rw [entersFolder, decide_eq_true_iff]
  cases path.fileName? with
  | none => simpa using htext
  | some name => simpa using ne_comm

/-- What a target stands for: a file for itself, a directory for the `.sol` files below it,
except those in directories of installed packages. -/
inductive StandsFor (tree : FileTree) (target path : Path) : Prop
  | file (hfile : tree.isFile target = true) (hsame : path.components = target.components)
  | below {folders : List String} {name : String} {node : Node} {content : ByteArray}
      (hnode : tree.node? target = some node)
      (hfile : nodeAt? (folders ++ [name]) node = some (.file content))
      (hbelow : path.components = target.components ++ (folders ++ [name]).map .name)
      (hextension : path.extension? = some "sol")
      (hpackage : packageDirectory ∉ target.fileName?.toList ++ folders)

theorem entered_entersFolder_iff {folders : List String} {name : String} {base : Path}
    (h : ∀ folder ∈ folders, IsName folder) :
    Node.Entered entersFolder base (folders ++ [name]) ↔ packageDirectory ∉ folders := by
  rw [Node.entered_concat]
  constructor
  · intro hentered hmem
    obtain ⟨front, back, heq⟩ := List.append_of_mem hmem
    exact (entersFolder_join (h _ hmem) _).mp (hentered front _ back heq) rfl
  · rintro hpackage front folder back rfl
    refine (entersFolder_join (h folder (by simp)) _).mpr ?_
    rintro rfl
    exact hpackage (by simp)

theorem solidityFiles_of_directory {tree : FileTree} {target : Path}
    {entries : List (String × Node)} (h : tree.node? target = some (.directory entries)) :
    tree.solidityFiles target =
      if entersFolder target then
        ((Node.directory entries).walk entersFolder target).filter (·.extension? = some "sol")
      else [] := by
  rw [solidityFiles, h]
  rfl

variable {tree : FileTree} (htree : tree.root.WellFormed)

include htree

/-- What a walk for sources finds, up to the texts of paths. -/
theorem exists_mem_walk_iff {target path : Path} (habsolute : target.isAbsolute = true)
    {entries : List (String × Node)} (hnode : tree.node? target = some (.directory entries)) :
    (∃ file ∈ tree.solidityFiles target, file.components = path.components) ↔
      ∃ folders name content,
        nodeAt? (folders ++ [name]) (.directory entries) = some (.file content) ∧
        path.components = target.components ++ (folders ++ [name]).map .name ∧
        path.extension? = some "sol" ∧
        packageDirectory ∉ target.fileName?.toList ++ folders := by
  have hentries := wellFormed_of_node? htree hnode
  rw [solidityFiles_of_directory hnode]
  constructor
  · rintro ⟨file, hmem, hsame⟩
    split at hmem
    case isFalse => cases hmem
    case isTrue henters =>
      rw [List.mem_filter, Node.mem_walk_iff hentries] at hmem
      obtain ⟨⟨names, content, hfile, hentered, rfl⟩, hextension⟩ := hmem
      have hnames := Node.isName_of_nodeAt? hentries hfile
      have hne : names ≠ [] := by
        rintro rfl
        cases hfile
      obtain ⟨folders, name, rfl⟩ := (List.eq_nil_or_concat' names).resolve_left hne
      rw [entered_entersFolder_iff fun folder hmem => hnames folder (by simp [hmem])]
        at hentered
      refine ⟨folders, name, content, hfile, ?_, ?_, ?_⟩
      · rw [← hsame, Path.components_descend hnames]
      · rw [← Path.extension?_congr hsame]
        simpa using hextension
      · rw [List.mem_append, not_or]
        exact ⟨(entersFolder_iff_of_isAbsolute habsolute).mp henters, hentered⟩
  · rintro ⟨folders, name, content, hfile, hbelow, hextension, hpackage⟩
    have hnames := Node.isName_of_nodeAt? hentries hfile
    have hsame : (target.descend (folders ++ [name])).components = path.components := by
      rw [hbelow, Path.components_descend hnames]
    rw [List.mem_append, not_or] at hpackage
    refine ⟨_, ?_, hsame⟩
    rw [if_pos ((entersFolder_iff_of_isAbsolute habsolute).mpr hpackage.1), List.mem_filter,
      Node.mem_walk_iff hentries]
    refine ⟨⟨_, content, hfile, ?_, rfl⟩, ?_⟩
    · rw [entered_entersFolder_iff fun folder hmem => hnames folder (by simp [hmem])]
      exact hpackage.2
    · rw [Path.extension?_congr hsame]
      simpa using hextension

/-- Up to their texts, the sources of a target are the paths that it stands for. -/
theorem exists_mem_solidityFiles_iff {target path : Path}
    (habsolute : target.isAbsolute = true) :
    (∃ file ∈ tree.solidityFiles target, file.components = path.components) ↔
      tree.StandsFor target path := by
  cases hnode : tree.node? target with
  | none =>
      simp only [solidityFiles, hnode, List.not_mem_nil, false_and, exists_false, false_iff]
      rintro (⟨hfile, -⟩ | ⟨hfound, -, -, -, -⟩)
      · simp [isFile, hnode] at hfile
      · simp [hnode] at hfound
  | some node =>
      cases node with
      | file content =>
          have hfile : tree.isFile target = true := by simp [isFile, hnode, Node.isFile]
          simp only [solidityFiles, hnode, List.mem_singleton, exists_eq_left]
          constructor
          · exact fun hsame => .file hfile hsame.symm
          · rintro (⟨-, hsame⟩ | ⟨hfound, hfile, -, -, -⟩)
            · exact hsame.symm
            · rw [hnode] at hfound
              cases hfound
              simpa using Node.eq_nil_of_nodeAt?_file hfile
      | directory entries =>
          rw [exists_mem_walk_iff htree habsolute hnode]
          constructor
          · rintro ⟨folders, name, content, hfile, hbelow, hextension, hpackage⟩
            exact .below hnode hfile hbelow hextension hpackage
          · rintro (⟨hfile, -⟩ | ⟨hfound, hfile, hbelow, hextension, hpackage⟩)
            · simp [isFile, hnode, Node.isFile] at hfile
            · rw [hnode] at hfound
              cases hfound
              exact ⟨_, _, _, hfile, hbelow, hextension, hpackage⟩

end FileTree

end ArtifactAtlas
