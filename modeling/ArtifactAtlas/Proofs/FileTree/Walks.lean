import ArtifactAtlas.FileTree.Access
import ArtifactAtlas.Proofs.Artifact.Steps
import ArtifactAtlas.Proofs.OrderedMap
import ArtifactAtlas.Proofs.Path.Resolved

/-!
# Where walks lead

A walk goes down from a directory, one name at a time, and finds the files that names lead
to unless a directory on the way is not entered.  Names are single components, so each file
that a walk finds lies below the directory where it began.
-/

namespace ArtifactAtlas

open FileTree.Node (IsName)

namespace Path

/-! ## Names as paths -/

theorem component?_of_isName {name : String} (h : IsName name) :
    component? name.toList = some (.name name) := by
  obtain ⟨hempty, hdot, hdots, -⟩ := h
  rw [component?_eq_name, String.ofList_toList]
  · exact fun hnil => hempty (String.toList_eq_nil_iff.mp hnil)
  · exact fun heq => hdot (String.toList_inj.mp heq)
  · exact fun heq => hdots (String.toList_inj.mp heq)

theorem not_isAbsolute_of_isName {name : String} (h : IsName name) :
    (Path.mk name).isAbsolute = false := by
  rw [isAbsolute, Bool.eq_false_iff]
  intro hprefix
  obtain ⟨rest, hrest⟩ := List.isPrefixOf_iff_prefix.mp hprefix
  exact h.2.2.2 (hrest ▸ List.mem_cons_self)

theorem components_of_isName {name : String} (h : IsName name) :
    (Path.mk name).components = [.name name] := by
  have hread := component?_of_isName h
  have hleading : leading? name.toList = some (.name name) := by
    rw [leading?_of_ne fun heq => h.2.1 (String.toList_inj.mp heq), hread]
  rw [components, componentsOf_of_split (head?_toList_of_not_isAbsolute
    (not_isAbsolute_of_isName h)) (Text.split_of_not_mem h.2.2.2), hleading]
  rfl

theorem components_join_name {name : String} (h : IsName name) (base : Path) :
    (base.join ⟨name⟩).components = base.components ++ [.name name] := by
  have hrelative := not_isAbsolute_of_isName h
  by_cases hempty : base.text = ""
  · rw [join, if_neg (by simp [hrelative]), if_pos (.inl hempty), hempty, String.empty_append,
      components_of_isName h, components, hempty]
    rfl
  · rw [components_join hrelative hempty, Text.split_of_not_mem h.2.2.2, List.filterMap_cons,
      component?_of_isName h]
    rfl

theorem isName_of_leading {name : String} (h : (Component.name name).Leading) : IsName name := by
  obtain ⟨hslash, hread⟩ := h
  refine ⟨?_, ?_, ?_, hslash⟩
  all_goals
    rintro rfl
    revert hread
    decide

theorem isName_of_fileName? {path : Path} {name : String} (h : path.fileName? = some name) :
    IsName name := by
  rw [fileName?] at h
  split at h
  case h_2 => cases h
  case h_1 text hlast =>
    cases h
    have hmem := List.mem_of_getLast? hlast
    have hwell := wellFormed_components path
    cases hcomponents : path.components with
    | nil => simp [hcomponents] at hmem
    | cons first rest =>
        rw [hcomponents] at hmem hwell
        rcases List.mem_cons.mp hmem with rfl | hrest
        · exact isName_of_leading (hwell.1.resolve_left (by simp))
        · exact isName_of_leading (hwell.2 _ hrest).leading

/-! ## Below a directory -/

/-- A path that leads on from another by names alone, or as far as it. -/
def Below (top path : Path) : Prop :=
  ∃ names : List String, path.components = top.components ++ names.map .name

theorem Below.refl (top : Path) : top.Below top :=
  ⟨[], (List.append_nil _).symm⟩

theorem Below.join_name {top base : Path} (h : top.Below base) {name : String}
    (hname : IsName name) : top.Below (base.join ⟨name⟩) := by
  obtain ⟨names, hnames⟩ := h
  refine ⟨names ++ [name], ?_⟩
  rw [components_join_name hname, hnames, List.append_assoc, List.map_append]
  rfl

/-- A path that a name completes, in a directory or in one below it. -/
def Within (top path : Path) : Prop :=
  ∃ (base : Path) (name : String), IsName name ∧ top.Below base ∧ path = base.join ⟨name⟩

theorem Within.below {top path : Path} (h : top.Within path) : top.Below path := by
  obtain ⟨base, name, hname, hbase, rfl⟩ := h
  exact hbase.join_name hname

/-- What stands in front of a relative path that is seen from a directory. -/
def leadIn (base : Path) : String :=
  if base.text = "" ∨ base.text.toList.getLast? = some '/' then base.text else base.text ++ "/"

theorem join_eq_leadIn {path : Path} (h : path.isAbsolute = false) (base : Path) :
    base.join path = ⟨base.leadIn ++ path.text⟩ := by
  rw [join, if_neg (by simp [h]), leadIn]
  split <;> rfl

theorem sublist_of_extensionOf? {name ext : List Char} (h : extensionOf? name = some ext) :
    ext.Sublist name := by
  have hmem : ext ∈ Text.split '.' name := by
    rw [extensionOf?] at h
    split at h
    case h_1 last before rest heq =>
      split at h
      case isTrue => cases h
      case isFalse =>
        cases h
        rw [← List.mem_reverse, heq]
        exact List.mem_cons_self
    case h_2 => cases h
  exact Text.sublist_of_mem_split hmem

theorem isName_of_letter {name : String} (hslash : '/' ∉ name.toList)
    (hletter : ∃ c ∈ name.toList, c ≠ '.') : IsName name := by
  obtain ⟨c, hc, hne⟩ := hletter
  refine ⟨?_, ?_, ?_, hslash⟩
  all_goals
    rintro rfl
    simp_all

theorem fileName?_join_name {name : String} (h : IsName name) (base : Path) :
    (base.join ⟨name⟩).fileName? = some name := by
  rw [fileName?, components_join_name h, List.getLast?_append_of_ne_nil _ (by simp)]
  rfl

theorem withExtension_join_name {name old : String} (hname : IsName name) {base : Path}
    (hold : (base.join ⟨name⟩).extension? = some old) (ext : String) :
    (base.join ⟨name⟩).withExtension ext =
      ⟨base.leadIn ++ (String.ofList (name.toList.take (name.length - old.length)) ++ ext)⟩ := by
  have hlength : old.length ≤ name.length := by
    rw [extension?, fileName?_join_name hname, Option.bind_some, Option.map_eq_some_iff] at hold
    obtain ⟨last, hlast, rfl⟩ := hold
    rw [String.length_ofList, ← String.length_toList]
    exact (sublist_of_extensionOf? hlast).length_le
  have hfront : (base.leadIn ++ name).length - old.length =
      base.leadIn.toList.length + (name.length - old.length) := by
    rw [String.length_append, String.length_toList]
    omega
  rw [Path.withExtension, hold]
  simp only [join_eq_leadIn (not_isAbsolute_of_isName hname), mk.injEq]
  rw [hfront, String.toList_append, List.take_length_add_append, String.ofList_append,
    String.ofList_toList, String.append_assoc]

/-- Another extension makes another name in the same directory. -/
theorem Within.withExtension {top path : Path} (h : top.Within path) {ext : String}
    (hslash : '/' ∉ ext.toList) (hletter : ∃ c ∈ ext.toList, c ≠ '.') :
    top.Within (path.withExtension ext) := by
  cases hold : path.extension? with
  | none => rwa [Path.withExtension, hold]
  | some old =>
      obtain ⟨base, name, hname, hbase, rfl⟩ := h
      have hother : IsName
          (String.ofList (name.toList.take (name.length - old.length)) ++ ext) := by
        apply isName_of_letter
        · rw [String.toList_append, String.toList_ofList, List.mem_append, not_or]
          exact ⟨fun hmem => hname.2.2.2 (List.mem_of_mem_take hmem), hslash⟩
        · obtain ⟨c, hc, hne⟩ := hletter
          refine ⟨c, ?_, hne⟩
          rw [String.toList_append]
          exact List.mem_append_right _ hc
      refine ⟨base, _, hother, hbase, ?_⟩
      rw [withExtension_join_name hname hold, join_eq_leadIn (not_isAbsolute_of_isName hother)]

/-- The path that leads down from a directory by names. -/
def descend (base : Path) (names : List String) : Path :=
  names.foldl (fun path name => path.join ⟨name⟩) base

theorem components_descend {names : List String} (h : ∀ name ∈ names, IsName name)
    (base : Path) : (base.descend names).components = base.components ++ names.map .name := by
  induction names generalizing base with
  | nil => simp [descend]
  | cons name names ih =>
      rw [List.forall_mem_cons] at h
      rw [descend, List.foldl_cons]
      exact (ih h.2 _).trans (by simp [components_join_name h.1])

theorem extension?_congr {path other : Path} (h : path.components = other.components) :
    path.extension? = other.extension? := by
  simp [extension?, fileName?, h]

theorem within_descend {names : List String} (hne : names ≠ [])
    (h : ∀ name ∈ names, IsName name) (top : Path) : top.Within (top.descend names) := by
  obtain ⟨folders, name, rfl⟩ := (List.eq_nil_or_concat' names).resolve_left hne
  have hfolders : ∀ folder ∈ folders, IsName folder := fun folder hmem => h folder (by simp [hmem])
  refine ⟨top.descend folders, name, h name (by simp),
    ⟨folders, components_descend hfolders top⟩, ?_⟩
  rw [descend, List.foldl_append]
  rfl

end Path

namespace FileTree

/-! ## Going down by names -/

@[simp] theorem nodeAt?_nil (node : Node) : nodeAt? [] node = some node := rfl

@[simp] theorem nodeAt?_cons (name : String) (names : List String) (node : Node) :
    nodeAt? (name :: names) node = (node.child? name).bind (nodeAt? names) := by
  have hnone : names.foldl (fun at? name => at?.bind (·.child? name)) (none : Option Node) =
      none := by
    induction names with
    | nil => rfl
    | cons _ _ ih => exact ih
  rw [nodeAt?, List.foldl_cons, Option.bind_some]
  cases node.child? name with
  | none => exact hnone
  | some child => rfl

namespace Node

theorem isFile_of_nodeAt?_nil {node : Node} {content : ByteArray}
    (h : nodeAt? [] node = some (.file content)) : node.isFile = true := by
  rw [nodeAt?_nil, Option.some.injEq] at h
  simp [h, isFile]

theorem isFile_of_nodeAt?_cons {name : String} {names : List String} {node found : Node}
    (h : nodeAt? (name :: names) node = some found) : node.isFile = false := by
  cases node with
  | file content => simp [child?] at h
  | directory entries => rfl

theorem eq_nil_of_nodeAt?_file {names : List String} {content : ByteArray} {found : Node}
    (h : nodeAt? names (.file content) = some found) : names = [] := by
  cases names with
  | nil => rfl
  | cons name names => cases isFile_of_nodeAt?_cons h

/-! ## Well-formed places -/

theorem AllWellFormed.of_mem {entries : List (String × Node)} (h : AllWellFormed entries)
    {name : String} {node : Node} (hmem : (name, node) ∈ entries) :
    IsName name ∧ node.WellFormed := by
  induction entries with
  | nil => cases hmem
  | cons entry rest ih =>
      rcases List.mem_cons.mp hmem with rfl | hmem
      · exact ⟨h.1, h.2.1⟩
      · exact ih h.2.2 hmem

theorem AllWellFormed.of_lookup {entries : List (String × Node)} (h : AllWellFormed entries)
    {name : String} {node : Node} (hlookup : Entries.lookup name entries = some node) :
    IsName name ∧ node.WellFormed :=
  h.of_mem (Entries.mem_of_lookup_eq_some hlookup)

theorem WellFormed.child? {node child : Node} (h : node.WellFormed) {name : String}
    (hchild : node.child? name = some child) : child.WellFormed := by
  cases node with
  | file content => cases hchild
  | directory entries => exact (h.2.of_lookup hchild).2

theorem wellFormed_empty : empty.WellFormed :=
  ⟨List.Pairwise.nil, trivial⟩

theorem isName_of_nodeAt? {names : List String} {node found : Node} (hnode : node.WellFormed)
    (h : nodeAt? names node = some found) : ∀ name ∈ names, IsName name := by
  induction names generalizing node with
  | nil => simp
  | cons name names ih =>
      rw [nodeAt?_cons, Option.bind_eq_some_iff] at h
      obtain ⟨child, hchild, hfound⟩ := h
      rw [List.forall_mem_cons]
      refine ⟨?_, ih (hnode.child? hchild) hfound⟩
      cases node with
      | file content => cases hchild
      | directory entries => exact (hnode.2.of_lookup hchild).1

/-! ## Walks -/

/-- Each directory on the way down by names is entered; where the way begins does not count. -/
def Entered (enters : Path → Bool) (base : Path) (names : List String) : Prop :=
  ∀ front name back, names = front ++ name :: back → front ≠ [] →
    enters (base.descend front) = true

theorem entered_nil (enters : Path → Bool) (base : Path) : Entered enters base [] := by
  simp [Entered]

theorem entered_cons {enters : Path → Bool} {base : Path} {name : String}
    {names : List String} :
    Entered enters base (name :: names) ↔
      (names ≠ [] → enters (base.join ⟨name⟩) = true) ∧
        Entered enters (base.join ⟨name⟩) names := by
  constructor
  · intro h
    constructor
    · intro hne
      obtain ⟨next, rest, rfl⟩ := List.exists_cons_of_ne_nil hne
      exact h [name] next rest rfl (by simp)
    · rintro front next back rfl _
      exact h (name :: front) next back rfl (by simp)
  · rintro ⟨hfirst, hrest⟩ front next back heq hne
    obtain ⟨first, front, rfl⟩ := List.exists_cons_of_ne_nil hne
    obtain ⟨rfl, rfl⟩ := List.cons.inj heq
    cases front with
    | nil => exact hfirst (by simp)
    | cons second front => exact hrest (second :: front) next back rfl (by simp)

/-- What a walk finds at one entry, when it finds what it should at the node of the entry. -/
theorem mem_entry_iff {enters : Path → Bool} {base path : Path} {name : String} {node : Node}
    (hwalk : path ∈ node.walk enters (base.join ⟨name⟩) ↔ ∃ names content,
      nodeAt? names node = some (.file content) ∧ Entered enters (base.join ⟨name⟩) names ∧
        path = (base.join ⟨name⟩).descend names) :
    (path ∈ if node.isFile || enters (base.join ⟨name⟩) then
        node.walk enters (base.join ⟨name⟩) else []) ↔
      ∃ names content, nodeAt? names node = some (.file content) ∧
        Entered enters base (name :: names) ∧ path = base.descend (name :: names) := by
  constructor
  · intro h
    split at h
    case isTrue henters =>
      obtain ⟨names, content, hfile, hentered, heq⟩ := hwalk.mp h
      refine ⟨names, content, hfile, entered_cons.mpr ⟨fun hne => ?_, hentered⟩, heq⟩
      obtain ⟨next, rest, rfl⟩ := List.exists_cons_of_ne_nil hne
      simpa [isFile_of_nodeAt?_cons hfile] using henters
    case isFalse => cases h
  · rintro ⟨names, content, hfile, hentered, heq⟩
    obtain ⟨hfirst, hrest⟩ := entered_cons.mp hentered
    rw [if_pos]
    · exact hwalk.mpr ⟨names, content, hfile, hrest, heq⟩
    · cases names with
      | nil => simp [isFile_of_nodeAt?_nil hfile]
      | cons next rest => simp [hfirst]

-- One case for each kind of node, and one for each entry of a directory.
mutual

theorem mem_walk_iff {enters : Path → Bool} {here path : Path} :
    ∀ {node : Node}, node.WellFormed →
      (path ∈ node.walk enters here ↔ ∃ names content,
        nodeAt? names node = some (.file content) ∧ Entered enters here names ∧
          path = here.descend names)
  | file content, _ => by
      rw [walk, List.mem_singleton]
      constructor
      · rintro rfl
        exact ⟨[], content, rfl, entered_nil enters path, rfl⟩
      · rintro ⟨names, content, hfile, -, rfl⟩
        obtain rfl := eq_nil_of_nodeAt?_file hfile
        rfl
  | directory entries, hnode => by
      rw [walk, mem_walkEach_iff hnode.2]
      constructor
      · rintro ⟨name, node, names, content, hmem, hfile, hrest⟩
        refine ⟨name :: names, content, ?_, hrest⟩
        rw [nodeAt?_cons, child?, hnode.1.lookup_eq_some_iff.mpr hmem]
        exact hfile
      · rintro ⟨names, content, hfile, hrest⟩
        cases names with
        | nil => cases hfile
        | cons name names =>
            rw [nodeAt?_cons, Option.bind_eq_some_iff] at hfile
            obtain ⟨node, hchild, hfile⟩ := hfile
            exact ⟨name, node, names, content, Entries.mem_of_lookup_eq_some hchild, hfile,
              hrest⟩

theorem mem_walkEach_iff {enters : Path → Bool} {base path : Path} :
    ∀ {entries : List (String × Node)}, AllWellFormed entries →
      (path ∈ walkEach enters base entries ↔ ∃ name node names content,
        (name, node) ∈ entries ∧ nodeAt? names node = some (.file content) ∧
          Entered enters base (name :: names) ∧ path = base.descend (name :: names))
  | [], _ => by simp [walkEach]
  | (first, child) :: rest, hentries => by
      rw [walkEach, List.mem_append, mem_entry_iff (mem_walk_iff hentries.2.1),
        mem_walkEach_iff hentries.2.2]
      simp only [List.mem_cons, Prod.mk.injEq]
      constructor
      · rintro (⟨names, content, hrest⟩ | ⟨name, node, names, content, hmem, hrest⟩)
        · exact ⟨first, child, names, content, .inl ⟨rfl, rfl⟩, hrest⟩
        · exact ⟨name, node, names, content, .inr hmem, hrest⟩
      · rintro ⟨name, node, names, content, ⟨rfl, rfl⟩ | hmem, hrest⟩
        · exact .inl ⟨names, content, hrest⟩
        · exact .inr ⟨name, node, names, content, hmem, hrest⟩

end

theorem entered_concat {enters : Path → Bool} {base : Path} {folders : List String}
    {name : String} :
    Entered enters base (folders ++ [name]) ↔ ∀ front folder back,
      folders = front ++ folder :: back → enters ((base.descend front).join ⟨folder⟩) = true := by
  constructor
  · rintro h front folder back rfl
    cases back with
    | nil =>
        have hlast := h (front ++ [folder]) name [] (by simp) (by simp)
        rwa [Path.descend, List.foldl_append] at hlast
    | cons next back =>
        have hfolder := h (front ++ [folder]) next (back ++ [name]) (by simp) (by simp)
        rwa [Path.descend, List.foldl_append] at hfolder
  · intro h front next back heq hne
    obtain ⟨front, folder, rfl⟩ := (List.eq_nil_or_concat' front).resolve_left hne
    rw [Path.descend, List.foldl_append]
    rcases List.eq_nil_or_concat' back with rfl | ⟨back, last, rfl⟩
    · obtain ⟨rfl, -⟩ := List.append_inj' heq rfl
      exact h front folder [] rfl
    · rw [← List.cons_append, ← List.append_assoc] at heq
      obtain ⟨rfl, -⟩ := List.append_inj' heq rfl
      exact h front folder (next :: back) (by simp)

end Node

theorem wellFormed_of_nodeAt? {root node : Node} (h : root.WellFormed) {names : List String}
    (hnode : nodeAt? names root = some node) : node.WellFormed := by
  induction names generalizing root with
  | nil =>
      cases hnode
      exact h
  | cons name names ih =>
      rw [nodeAt?_cons, Option.bind_eq_some_iff] at hnode
      obtain ⟨child, hchild, hnode⟩ := hnode
      exact ih (h.child? hchild) hnode

theorem wellFormed_getD_nodeAt? {root : Node} (h : root.WellFormed) (names : List String) :
    ((nodeAt? names root).getD .empty).WellFormed := by
  cases hnode : nodeAt? names root with
  | none => exact Node.wellFormed_empty
  | some node => exact wellFormed_of_nodeAt? h hnode

variable {tree : FileTree} (htree : tree.root.WellFormed)

include htree

/-- The step: from a well-formed node a piece of a path leads to another. -/
theorem Place.wellFormed_step {place next : Place} (hplace : place.node.WellFormed)
    {piece : List Char} (hstep : place.step tree.root piece = .ok next) :
    next.node.WellFormed := by
  rw [Place.step] at hstep
  split at hstep
  case h_1 => cases hstep
  case h_2 entries hentries =>
    split at hstep
    case isTrue =>
      cases hstep
      exact hplace
    case isFalse =>
      split at hstep
      case isTrue =>
        cases hstep
        rw [Place.above]
        split
        case h_1 => exact hplace
        case h_2 => exact wellFormed_getD_nodeAt? htree _
      case isFalse =>
        simp only at hstep
        split at hstep
        case isTrue => cases hstep
        case isFalse =>
          split at hstep
          case h_1 => cases hstep
          case h_2 node hlookup =>
            cases hstep
            rw [hentries] at hplace
            exact (hplace.2.of_lookup hlookup).2

/-- The run: each path leads to a well-formed node, if it leads anywhere. -/
theorem wellFormed_of_find {path : Path} {place : Place} (hfind : tree.find path = .ok place) :
    place.node.WellFormed := by
  rw [find] at hfind
  split at hfind
  case h_1 => cases hfind
  case h_2 =>
    have hstart : (tree.startOf path).node.WellFormed := by
      rw [startOf]
      split
      case isTrue => exact htree
      case isFalse => exact wellFormed_getD_nodeAt? htree _
    rw [follow] at hfind
    generalize tree.startOf path = start at hfind hstart
    generalize Text.split '/' path.text.toList = pieces at hfind
    induction pieces generalizing start with
    | nil =>
        cases pure_eq_ok_iff.mp hfind
        exact hstart
    | cons piece rest ih =>
        rw [List.foldlM_cons] at hfind
        obtain ⟨next, hstep, hrest⟩ := bind_eq_ok_iff.mp hfind
        exact ih next (Place.wellFormed_step htree hstart hstep) hrest

theorem wellFormed_of_node? {path : Path} {node : Node} (h : tree.node? path = some node) :
    node.WellFormed := by
  obtain ⟨place, hfind, rfl⟩ := Option.map_eq_some_iff.mp h
  exact wellFormed_of_find htree (toOption_eq_some_iff.mp hfind)

theorem within_of_mem_jsonFiles {top : Path} (htop : tree.isDirectory top = true)
    {skip : Path → Bool} {paths : List Path} (hfiles : tree.jsonFiles top skip = .ok paths) :
    ∀ path ∈ paths, top.Within path := by
  intro path hpath
  rw [jsonFiles, map_eq_ok_iff] at hfiles
  obtain ⟨place, hfind, rfl⟩ := hfiles
  have hnode := wellFormed_of_find htree hfind
  obtain ⟨names, content, hfile, -, rfl⟩ :=
    (Node.mem_walk_iff hnode).mp (List.mem_filter.mp hpath).1
  apply Path.within_descend _ (Node.isName_of_nodeAt? hnode hfile)
  rintro rfl
  rw [nodeAt?_nil, Option.some.injEq] at hfile
  simp [isDirectory, node?, hfind, Except.toOption, hfile, Node.isDirectory] at htop

end FileTree

end ArtifactAtlas
