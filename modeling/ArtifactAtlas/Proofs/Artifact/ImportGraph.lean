import ArtifactAtlas.Proofs.Artifact.ImportResolver

/-!
# What an import graph says

A graph is made file by file, with one resolver for all of them.  It is the same as one
that is described without a resolver (`ImportGraph.described`), and from the description
it follows which files a file imports, and that the order of the files does not matter.
-/

namespace ArtifactAtlas

/-! ## Graphs without a resolver -/

/-- The imports of a file, in the order of its syntax tree. -/
def BuildFile.imports (file : BuildFile) : List String :=
  ((file.data.get? "ast").map Ast.importPaths).getD []

namespace ImportGraph

variable {index : BuildIndex} {sourceKey : String}

/-- The sources that the imports of a file stand for. -/
def importedSources (index : BuildIndex) (file : BuildFile) : List String :=
  file.imports.filterMap index.resolveImport?

/-- The imports of a file that stand for no declared source. -/
def unresolvedImports (index : BuildIndex) (file : BuildFile) : List String :=
  file.imports.filter fun path => (index.resolveImport? path).isNone

/-- The files that declare what a file imports, without those of its own source. -/
def importedFiles (index : BuildIndex) (sourceKey : String) (file : BuildFile) :
    List BuildFile :=
  index.files.filter fun other =>
    other.text? sourceKey ≠ file.text? sourceKey ∧
      ∃ source ∈ importedSources index file, other.text? sourceKey = some source

def edgesEntry (index : BuildIndex) (sourceKey : String) (file : BuildFile) :
    PathKey × OrderedMap PathKey Path :=
  (file.path.components, .ofList ((importedFiles index sourceKey file).map fun other =>
    (other.path.components, other.path)))

def unresolvedEntries (index : BuildIndex) (files : List BuildFile) :
    List (PathKey × List String) :=
  (files.filter (unresolvedImports index · ≠ [])).map fun file =>
    (file.path.components, unresolvedImports index file)

/-- The import graph, described file by file. -/
def described (index : BuildIndex) (sourceKey : String) : ImportGraph where
  edges := .ofList (index.files.map (edgesEntry index sourceKey))
  unresolved := .ofList (unresolvedEntries index index.files)

theorem foldl_push_unresolved (index : BuildIndex) (file : BuildFile)
    {groups : OrderedMap PathKey (List String)}
    (hfresh : groups.get? file.path.components = none) :
    (unresolvedImports index file).foldl
        (fun groups path => groups.push file.path.components path) groups =
      groups.insertAll (unresolvedEntries index [file]) := by
  rw [unresolvedEntries]
  by_cases hnil : unresolvedImports index file = []
  · simp [hnil, OrderedMap.insertAll]
  · rw [OrderedMap.foldl_push_of_get?_eq_none hfresh hnil]
    simp [hnil, OrderedMap.insertAll]

namespace Draft

variable {draft : Draft}

theorem setImports_setImports (draft : Draft) (key : PathKey)
    (first second : OrderedMap PathKey Path) :
    (draft.setImports key first).setImports key second = draft.setImports key second := by
  simp only [setImports, OrderedMap.insert_insert]

@[simp] theorem importsAt_setImports (draft : Draft) (key : PathKey)
    (imports : OrderedMap PathKey Path) :
    (draft.setImports key imports).importsAt key = imports := by
  rw [setImports, importsAt, OrderedMap.get?_insert, if_pos rfl]
  rfl

theorem addImport_of_some (h : draft.resolver.Faithful index) (key : PathKey)
    (imports : OrderedMap PathKey Path) {path source : String}
    (hsource : index.resolveImport? path = some source) :
    addImport key (draft.setImports key imports) path =
      { draft with resolver := (draft.resolver.resolve path).2 }.setImports key
        (imports.insertNewAll (pathsDeclaring index source)) := by
  obtain ⟨hanswer, hfaithful⟩ := h.resolve path
  have hresolve : (draft.setImports key imports).resolver.resolve path =
      (some source, (draft.resolver.resolve path).2) := Prod.ext (hanswer.trans hsource) rfl
  simp only [addImport, hresolve, importsAt_setImports, hfaithful.sameIndex]
  exact setImports_setImports { draft with resolver := (draft.resolver.resolve path).2 } key
    imports _

theorem addImport_of_none (h : draft.resolver.Faithful index) (key : PathKey)
    (imports : OrderedMap PathKey Path) {path : String}
    (hnone : index.resolveImport? path = none) :
    addImport key (draft.setImports key imports) path =
      { draft with
        resolver := (draft.resolver.resolve path).2
        graph.unresolved := draft.graph.unresolved.push key path }.setImports key imports := by
  have hresolve : (draft.setImports key imports).resolver.resolve path =
      (none, (draft.resolver.resolve path).2) := Prod.ext ((h.resolve path).1.trans hnone) rfl
  simp only [addImport, hresolve]
  rfl

/-- The run: what the imports of a file do to a draft that has some files for it already. -/
theorem exists_foldl_addImport (draft : Draft) (h : draft.resolver.Faithful index)
    (key : PathKey) (imports : OrderedMap PathKey Path) (paths : List String) :
    ∃ resolver, ImportResolver.Faithful index resolver ∧
      paths.foldl (addImport key) (draft.setImports key imports) =
        Draft.setImports
          { resolver
            graph.edges := draft.graph.edges
            graph.unresolved :=
              (paths.filter fun path => (index.resolveImport? path).isNone).foldl
                (fun groups path => groups.push key path) draft.graph.unresolved }
          key
          (imports.insertNewAll
            ((paths.filterMap index.resolveImport?).flatMap (pathsDeclaring index))) := by
  induction paths generalizing draft imports with
  | nil => exact ⟨draft.resolver, h, rfl⟩
  | cons path rest ih =>
      rw [List.foldl_cons]
      cases hsource : index.resolveImport? path with
      | none =>
          rw [addImport_of_none h key imports hsource]
          obtain ⟨resolver, hresolver, hrun⟩ := ih
            { draft with
              resolver := (draft.resolver.resolve path).2
              graph.unresolved := draft.graph.unresolved.push key path }
            (h.resolve path).2 imports
          refine ⟨resolver, hresolver, hrun.trans ?_⟩
          simp [hsource]
      | some source =>
          rw [addImport_of_some h key imports hsource]
          obtain ⟨resolver, hresolver, hrun⟩ := ih
            { draft with resolver := (draft.resolver.resolve path).2 } (h.resolve path).2
            (imports.insertNewAll (pathsDeclaring index source))
          refine ⟨resolver, hresolver, hrun.trans ?_⟩
          simp [hsource, OrderedMap.insertNewAll]

/-- The draft with the entries of more files, as described. -/
def withFiles (index : BuildIndex) (sourceKey : String) (draft : Draft)
    (resolver : ImportResolver) (files : List BuildFile) : Draft where
  resolver
  graph.edges := draft.graph.edges.insertAll (files.map (edgesEntry index sourceKey))
  graph.unresolved := draft.graph.unresolved.insertAll (unresolvedEntries index files)

theorem withFiles_singleton (draft : Draft) (resolver : ImportResolver) (file : BuildFile) :
    draft.withFiles index sourceKey resolver [file] =
      { resolver
        graph.edges :=
          draft.graph.edges.insert file.path.components (edgesEntry index sourceKey file).2
        graph.unresolved :=
          draft.graph.unresolved.insertAll (unresolvedEntries index [file]) } := rfl

theorem withFiles_withFiles (draft : Draft) (resolver resolver' : ImportResolver)
    (front back : List BuildFile) :
    (draft.withFiles index sourceKey resolver front).withFiles index sourceKey resolver' back =
      draft.withFiles index sourceKey resolver' (front ++ back) := by
  simp only [withFiles, unresolvedEntries, List.map_append, List.filter_append,
    OrderedMap.insertAll_append]

/-- A draft that has no entries for a file. -/
def Fresh (draft : Draft) (file : BuildFile) : Prop :=
  draft.graph.edges.get? file.path.components = none ∧
    draft.graph.unresolved.get? file.path.components = none

theorem Fresh.withFiles {file other : BuildFile} (h : draft.Fresh other)
    (hne : file.path.components ≠ other.path.components) (resolver : ImportResolver) :
    (draft.withFiles index sourceKey resolver [file]).Fresh other := by
  rw [withFiles_singleton]
  constructor
  · rw [OrderedMap.get?_insert, if_neg hne, h.1]
  · rw [OrderedMap.get?_insertAll, h.2, unresolvedEntries, List.filter_cons]
    split <;> simp [Entries.lookup, hne]

/-- A file without a syntax tree counts as one without imports. -/
theorem addFile_eq (draft : Draft) (file : BuildFile)
    (himports : draft.importsAt file.path.components = .empty) :
    draft.addFile sourceKey file =
      let key := file.path.components
      let added := file.imports.foldl (addImport key) (draft.setImports key .empty)
      let own := (file.text? sourceKey).toList.flatMap (pathsDeclaring added.resolver.index)
      added.setImports key
        ((key :: own.map Prod.fst).foldl (fun edges key => edges.erase key)
          (added.importsAt key)) := by
  simp only [addFile, BuildFile.imports, himports]
  cases file.data.get? "ast" with
  | some ast => rfl
  | none =>
      simp only [Option.map_none, Option.getD_none, List.foldl_nil, importsAt_setImports,
        setImports_setImports, OrderedMap.foldl_erase_empty]

end Draft

/-! ## Files of an index -/

section

variable {files : List BuildFile} {file : BuildFile}
  (hindex : BuildIndex.ofFiles sourceKey files = .ok index)

include hindex

theorem mem_importedFiles_iff {other : BuildFile} :
    other ∈ importedFiles index sourceKey file ↔
      other ∈ files ∧ other.text? sourceKey ≠ file.text? sourceKey ∧
        ∃ source ∈ importedSources index file, other.text? sourceKey = some source := by
  rw [importedFiles, BuildIndex.files_of_ofFiles hindex, List.mem_filter, decide_eq_true_iff]

theorem mem_pathsDeclaring_iff {source : String} {key : PathKey} {path : Path} :
    (key, path) ∈ pathsDeclaring index source ↔
      ∃ other ∈ files, other.text? sourceKey = some source ∧ other.path.components = key ∧
        other.path = path := by
  simp only [pathsDeclaring, List.mem_map, BuildIndex.mem_declaring_iff hindex, Prod.mk.injEq,
    and_assoc]

variable (hpaths : (files.map (·.path.components)).Nodup)

include hpaths

theorem nodup_edges (file : BuildFile) :
    (((importedFiles index sourceKey file).map fun other =>
      (other.path.components, other.path)).map Prod.fst).Nodup := by
  have hsublist : (importedFiles index sourceKey file).Sublist files := by
    rw [importedFiles, BuildIndex.files_of_ofFiles hindex]
    exact List.filter_sublist
  rw [List.map_map]
  exact hpaths.sublist (hsublist.map _)

omit hpaths in
theorem mem_own_iff (hfile : file ∈ files) {key : PathKey} :
    key ∈ ((file.text? sourceKey).toList.flatMap (pathsDeclaring index)).map Prod.fst ↔
      ∃ other ∈ files, other.text? sourceKey = file.text? sourceKey ∧
        other.path.components = key := by
  obtain ⟨source, hsource⟩ := BuildIndex.exists_text?_of_ofFiles hindex hfile
  simp only [hsource, Option.toList_some, List.flatMap_singleton, List.mem_map, Prod.exists,
    mem_pathsDeclaring_iff hindex]
  grind

omit hpaths in
theorem mem_imported_iff {key : PathKey} {path : Path} :
    (key, path) ∈ (importedSources index file).flatMap (pathsDeclaring index) ↔
      ∃ other ∈ files, (∃ source ∈ importedSources index file,
        other.text? sourceKey = some source) ∧ other.path.components = key ∧
          other.path = path := by
  simp only [List.mem_flatMap, mem_pathsDeclaring_iff hindex]
  grind

/-- Taking away the files of the own source leaves the imported files of other sources. -/
theorem erased_eq_edges (hfile : file ∈ files) :
    ((file.path.components ::
        ((file.text? sourceKey).toList.flatMap (pathsDeclaring index)).map Prod.fst).foldl
        (fun edges key => edges.erase key)
        (OrderedMap.empty.insertNewAll
          ((importedSources index file).flatMap (pathsDeclaring index)))) =
      (edgesEntry index sourceKey file).2 := by
  have hsame : ∀ first ∈ files, ∀ second ∈ files,
      first.path.components = second.path.components → first = second :=
    fun first hfirst second hsecond => List.inj_on_of_nodup_map hpaths hfirst hsecond
  have hfunctional : ∀ key first second,
      (key, first) ∈ (importedSources index file).flatMap (pathsDeclaring index) →
      (key, second) ∈ (importedSources index file).flatMap (pathsDeclaring index) →
      first = second := by
    intro key first second hfirst hsecond
    obtain ⟨one, hone, -, hkey, rfl⟩ := (mem_imported_iff hindex).mp hfirst
    obtain ⟨two, htwo, -, hkey', rfl⟩ := (mem_imported_iff hindex).mp hsecond
    rw [hsame one hone two htwo (hkey.trans hkey'.symm)]
  have hnodup := nodup_edges hindex hpaths file
  rw [← List.nodup_reverse, ← List.map_reverse] at hnodup
  apply OrderedMap.eq_of_get?_eq
  intro key
  ext path
  rw [OrderedMap.get?_foldl_erase, Option.ite_none_left_eq_some, List.mem_cons,
    mem_own_iff hindex hfile, OrderedMap.get?_insertNewAll, OrderedMap.get?_empty,
    Option.none_or, Entries.lookup_eq_some_iff_of_functional hfunctional,
    mem_imported_iff hindex, edgesEntry, OrderedMap.get?_ofList,
    Entries.lookup_eq_some_iff_of_nodup hnodup, List.mem_reverse, List.mem_map]
  simp only [mem_importedFiles_iff hindex, Prod.mk.injEq, not_or]
  constructor
  · rintro ⟨⟨-, hown⟩, other, hother, himported, hkey, hpath⟩
    refine ⟨other, ⟨hother, fun heq => ?_, himported⟩, hkey, hpath⟩
    exact hown ⟨other, hother, heq, hkey⟩
  · rintro ⟨other, ⟨hother, hne, himported⟩, rfl, rfl⟩
    refine ⟨⟨fun hself => ?_, ?_⟩, other, hother, himported, rfl, rfl⟩
    · exact hne (by rw [hsame other hother file hfile hself])
    · rintro ⟨own, hown, heq, hself⟩
      rw [hsame own hown other hother hself] at heq
      exact hne heq

/-! ## The graph file by file -/

/-- The step: a file that comes up for the first time gets its entries, as described. -/
theorem exists_addFile (hfile : file ∈ files) {draft : Draft}
    (hfaithful : draft.resolver.Faithful index) (hfresh : draft.Fresh file) :
    ∃ resolver, ImportResolver.Faithful index resolver ∧
      draft.addFile sourceKey file = draft.withFiles index sourceKey resolver [file] := by
  have himports : draft.importsAt file.path.components = .empty := by
    rw [Draft.importsAt, hfresh.1]
    rfl
  obtain ⟨resolver, hresolver, hrun⟩ := Draft.exists_foldl_addImport draft hfaithful
    file.path.components .empty file.imports
  have hindexed : resolver.index = index := hresolver.sameIndex
  have herased := erased_eq_edges hindex hpaths hfile
  have hpushed := foldl_push_unresolved index file hfresh.2
  rw [importedSources] at herased
  rw [unresolvedImports] at hpushed
  refine ⟨resolver, hresolver, ?_⟩
  rw [Draft.addFile_eq draft file himports, Draft.withFiles_singleton]
  simp only [hrun, Draft.importsAt_setImports, Draft.setImports_setImports]
  simp only [Draft.setImports, hindexed, herased, hpushed]

/-- The run: files that come up for the first time get their entries one after the other. -/
theorem exists_foldl_addFile {rest : List BuildFile} (hrest : ∀ file ∈ rest, file ∈ files)
    (hnodup : (rest.map (·.path.components)).Nodup) (draft : Draft)
    (hfaithful : draft.resolver.Faithful index) (hfresh : ∀ file ∈ rest, draft.Fresh file) :
    ∃ resolver, ImportResolver.Faithful index resolver ∧
      rest.foldl (Draft.addFile sourceKey) draft =
        draft.withFiles index sourceKey resolver rest := by
  induction rest generalizing draft with
  | nil => exact ⟨draft.resolver, hfaithful, rfl⟩
  | cons file rest ih =>
      rw [List.forall_mem_cons] at hrest hfresh
      rw [List.map_cons, List.nodup_cons] at hnodup
      obtain ⟨resolver, hresolver, hstep⟩ :=
        exists_addFile hindex hpaths hrest.1 hfaithful hfresh.1
      have hfresh' : ∀ other ∈ rest,
          (draft.withFiles index sourceKey resolver [file]).Fresh other := by
        intro other hmem
        refine (hfresh.2 other hmem).withFiles (fun heq => ?_) resolver
        exact hnodup.1 (List.mem_map.mpr ⟨other, hmem, heq.symm⟩)
      obtain ⟨resolver', hresolver', hrun⟩ := ih hrest.2 hnodup.2 _ hresolver hfresh'
      refine ⟨resolver', hresolver', ?_⟩
      rw [List.foldl_cons, hstep, hrun, Draft.withFiles_withFiles, List.singleton_append]

/-- One resolver for all files comes to the same as a search for each import. -/
theorem ofIndex_eq_described : ofIndex index sourceKey = described index sourceKey := by
  obtain ⟨resolver, -, hrun⟩ := exists_foldl_addFile hindex hpaths (fun _ hfile => hfile) hpaths
    ⟨.ofIndex index, .empty⟩ (ImportResolver.faithful_ofIndex index) fun _ _ => ⟨rfl, rfl⟩
  rw [ofIndex, described, BuildIndex.files_of_ofFiles hindex, hrun]
  rfl

/-! ## What the graph says of a file -/

/-- The files that a file imports are those that declare a source that one of its imports
stands for, if they do not declare its own source. -/
theorem mem_importsOf_iff (hfile : file ∈ files) {path : Path} :
    path ∈ (ofIndex index sourceKey).importsOf file.path ↔
      ∃ other ∈ files, other.path = path ∧ other.text? sourceKey ≠ file.text? sourceKey ∧
        ∃ text ∈ file.imports, ∃ source, StandsFor (Declared files sourceKey) text source ∧
          other.text? sourceKey = some source := by
  have hkeys : ((files.map (edgesEntry index sourceKey)).reverse.map Prod.fst).Nodup := by
    rw [List.map_reverse, List.nodup_reverse, List.map_map]
    exact hpaths
  have hentry : (described index sourceKey).edges.get? file.path.components =
      some (edgesEntry index sourceKey file).2 := by
    rw [described, OrderedMap.get?_ofList, BuildIndex.files_of_ofFiles hindex,
      Entries.lookup_eq_some_iff_of_nodup hkeys, List.mem_reverse]
    exact List.mem_map_of_mem hfile
  have hperm := OrderedMap.perm_toList_ofList (nodup_edges hindex hpaths file)
  rw [ofIndex_eq_described hindex hpaths, importsOf, hentry, Option.getD_some, edgesEntry,
    OrderedMap.values, (hperm.map Prod.snd).mem_iff, List.map_map, List.mem_map]
  simp only [mem_importedFiles_iff hindex, importedSources, List.mem_filterMap,
    BuildIndex.resolveImport?_eq_some_iff hindex, Function.comp]
  grind

theorem unresolvedOf_eq (hfile : file ∈ files) :
    (ofIndex index sourceKey).unresolvedOf file.path = unresolvedImports index file := by
  have hkeys : ((unresolvedEntries index files).reverse.map Prod.fst).Nodup := by
    rw [List.map_reverse, List.nodup_reverse, unresolvedEntries, List.map_map]
    exact hpaths.sublist (List.filter_sublist.map _)
  have hmem : ∀ texts, (file.path.components, texts) ∈ unresolvedEntries index files ↔
      unresolvedImports index file ≠ [] ∧ unresolvedImports index file = texts := by
    intro texts
    simp only [unresolvedEntries, List.mem_map, List.mem_filter, decide_eq_true_iff,
      Prod.mk.injEq]
    constructor
    · rintro ⟨other, ⟨hother, hne⟩, hpath, htexts⟩
      obtain rfl := List.inj_on_of_nodup_map hpaths hother hfile hpath
      exact ⟨hne, htexts⟩
    · rintro ⟨hne, htexts⟩
      exact ⟨file, ⟨hfile, hne⟩, rfl, htexts⟩
  rw [ofIndex_eq_described hindex hpaths, unresolvedOf, described, OrderedMap.get?_ofList,
    BuildIndex.files_of_ofFiles hindex]
  cases hlookup : Entries.lookup file.path.components (unresolvedEntries index files).reverse with
  | some texts =>
      rw [Entries.lookup_eq_some_iff_of_nodup hkeys, List.mem_reverse, hmem] at hlookup
      exact hlookup.2.symm
  | none =>
      by_contra hne
      have hentry := (hmem _).mpr ⟨Ne.symm hne, rfl⟩
      rw [← List.mem_reverse, ← Entries.lookup_eq_some_iff_of_nodup hkeys, hlookup] at hentry
      cases hentry

/-! ## The order of the files -/

theorem edgesEntry_eq_of_perm {others : List BuildFile} {shuffled : BuildIndex}
    (hshuffled : BuildIndex.ofFiles sourceKey others = .ok shuffled)
    (hperm : others.Perm files) :
    edgesEntry shuffled sourceKey = edgesEntry index sourceKey := by
  have hpaths' := (hperm.map (·.path.components)).nodup_iff.mpr hpaths
  funext file
  have hfiles : (importedFiles shuffled sourceKey file).Perm
      (importedFiles index sourceKey file) := by
    rw [importedFiles, importedFiles, importedSources, importedSources,
      BuildIndex.resolveImport?_eq_of_perm hindex hshuffled hperm,
      BuildIndex.files_of_ofFiles hshuffled, BuildIndex.files_of_ofFiles hindex]
    exact hperm.filter _
  rw [edgesEntry, edgesEntry,
    OrderedMap.ofList_eq_of_perm (nodup_edges hshuffled hpaths' file) (hfiles.map _)]

omit hpaths in
theorem unresolvedImports_eq_of_perm {others : List BuildFile} {shuffled : BuildIndex}
    (hshuffled : BuildIndex.ofFiles sourceKey others = .ok shuffled)
    (hperm : others.Perm files) : unresolvedImports shuffled = unresolvedImports index := by
  funext file
  rw [unresolvedImports, unresolvedImports,
    BuildIndex.resolveImport?_eq_of_perm hindex hshuffled hperm]

/-- Files in another order give the same graph. -/
theorem exists_ofIndex_eq_of_perm {others : List BuildFile} (hperm : others.Perm files) :
    ∃ shuffled, BuildIndex.ofFiles sourceKey others = .ok shuffled ∧
      ofIndex shuffled sourceKey = ofIndex index sourceKey := by
  obtain ⟨shuffled, hshuffled⟩ :
      ∃ shuffled, BuildIndex.ofFiles sourceKey others = .ok shuffled :=
    BuildIndex.exists_ofFiles fun file hfile =>
      BuildIndex.exists_text?_of_ofFiles hindex (hperm.mem_iff.mp hfile)
  have hpaths' := (hperm.map (·.path.components)).nodup_iff.mpr hpaths
  refine ⟨shuffled, hshuffled, ?_⟩
  rw [ofIndex_eq_described hshuffled hpaths', ofIndex_eq_described hindex hpaths, described,
    described, edgesEntry_eq_of_perm hindex hpaths hshuffled hperm,
    BuildIndex.files_of_ofFiles hshuffled, BuildIndex.files_of_ofFiles hindex]
  congr 1
  · refine OrderedMap.ofList_eq_of_perm ?_ (hperm.map _)
    rw [List.map_map]
    exact hpaths'
  · rw [unresolvedEntries, unresolvedEntries,
      unresolvedImports_eq_of_perm hindex hshuffled hperm]
    refine OrderedMap.ofList_eq_of_perm ?_ ((hperm.filter _).map _)
    rw [List.map_map]
    exact hpaths'.sublist (List.filter_sublist.map _)

/-- No file imports itself or a file of its own source. -/
theorem components_ne_of_mem_importsOf (hfile : file ∈ files) {path : Path}
    (hpath : path ∈ (ofIndex index sourceKey).importsOf file.path) {sibling : BuildFile}
    (hsibling : sibling ∈ files) (hsource : sibling.text? sourceKey = file.text? sourceKey) :
    path.components ≠ sibling.path.components := by
  obtain ⟨other, hother, rfl, hne, -⟩ := (mem_importsOf_iff hindex hpaths hfile).mp hpath
  intro heq
  rw [List.inj_on_of_nodup_map hpaths hother hsibling heq] at hne
  exact hne hsource

end

/--
The import graph of files with different paths, told without a resolver: what an import
stands for, and from it which files a file imports and which imports it leaves open.
The order of the files does not show in it.
-/
theorem ofIndex_describes_imports {files : List BuildFile}
    (hindex : BuildIndex.ofFiles sourceKey files = .ok index)
    (hpaths : (files.map (·.path.components)).Nodup) :
    ofIndex index sourceKey = described index sourceKey ∧
      (∀ text source, index.resolveImport? text = some source ↔
        StandsFor (Declared files sourceKey) text source) ∧
      (∀ text, index.resolveImport? text = none ↔
        ∀ source, Declared files sourceKey source →
          sourceFileName source ≠ sourceFileName text) ∧
      (∀ file ∈ files, ∀ path,
        path ∈ (ofIndex index sourceKey).importsOf file.path ↔
          ∃ other ∈ files, other.path = path ∧
            other.text? sourceKey ≠ file.text? sourceKey ∧
            ∃ text ∈ file.imports, ∃ source,
              StandsFor (Declared files sourceKey) text source ∧
                other.text? sourceKey = some source) ∧
      (∀ file ∈ files, (ofIndex index sourceKey).unresolvedOf file.path =
        file.imports.filter fun text => (index.resolveImport? text).isNone) ∧
      (∀ file ∈ files, ∀ sibling ∈ files, sibling.text? sourceKey = file.text? sourceKey →
        ∀ path ∈ (ofIndex index sourceKey).importsOf file.path,
          path.components ≠ sibling.path.components) ∧
      ∀ others, others.Perm files →
        ∃ shuffled, BuildIndex.ofFiles sourceKey others = .ok shuffled ∧
          ofIndex shuffled sourceKey = ofIndex index sourceKey := by
  refine ⟨ofIndex_eq_described hindex hpaths, ?_, ?_, ?_, ?_, ?_, ?_⟩
  · exact fun text source => BuildIndex.resolveImport?_eq_some_iff hindex
  · exact fun text => BuildIndex.resolveImport?_eq_none_iff hindex
  · exact fun file hfile path => mem_importsOf_iff hindex hpaths hfile
  · exact fun file hfile => unresolvedOf_eq hindex hpaths hfile
  · exact fun file hfile sibling hsibling hsource path hpath =>
      components_ne_of_mem_importsOf hindex hpaths hfile hpath hsibling hsource
  · exact fun others hperm => exists_ofIndex_eq_of_perm hindex hpaths hperm

/-- A build file of a source that imports others. -/
def importingFile (path source : String) (imports : List String) : BuildFile where
  path := ⟨path⟩
  data := .object [
    ("sourcePath", .string source),
    ("ast", .object [("nodes", .array (imports.map fun text =>
      .object [("nodeType", .string "ImportDirective"), ("absolutePath", .string text)]))])]

/-- Two sources of one file name, two files of one source, a cycle and an open import. -/
def tokenFiles : List BuildFile :=
  [importingFile "/build/A.json" "/p/A.sol" ["@oz/token/B.sol", "/p/C.sol", "/p/A.sol"],
    importingFile "/build/A2.json" "/p/A.sol" ["Open.sol", "/p/A.sol", "Open.sol"],
    importingFile "/build/B.json" "/lib/@oz/token/B.sol" ["/elsewhere/A.sol"],
    importingFile "/build/B2.json" "/lib/other/B.sol" [],
    importingFile "/build/C.json" "/p/C.sol" ["/p/A.sol"]]

theorem ofIndex_tokenFiles :
    ∃ index, BuildIndex.ofFiles "sourcePath" tokenFiles = .ok index ∧
      (tokenFiles.map (·.path.components)).Nodup ∧
      (ofIndex index "sourcePath").edges.values.map (·.values.map (·.text)) =
        [["/build/B.json", "/build/C.json"], [], ["/build/A.json", "/build/A2.json"], [],
          ["/build/A.json", "/build/A2.json"]] ∧
      (ofIndex index "sourcePath").unresolvedOf ⟨"/build/A2.json"⟩ = ["Open.sol", "Open.sol"] ∧
      ∃ shuffled, BuildIndex.ofFiles "sourcePath" tokenFiles.reverse = .ok shuffled ∧
        ofIndex shuffled "sourcePath" = ofIndex index "sourcePath" := by
  have hpaths : (tokenFiles.map (·.path.components)).Nodup := by decide +kernel
  have hindex : BuildIndex.ofFiles "sourcePath" tokenFiles = .ok _ := rfl
  obtain ⟨hsame, -, -, -, -, -, hperm⟩ := ofIndex_describes_imports hindex hpaths
  refine ⟨_, hindex, hpaths, ?_⟩
  refine ⟨?_, ?_, hperm tokenFiles.reverse (List.reverse_perm _)⟩
  · rw [hsame]
    decide +kernel
  · rw [hsame]
    decide +kernel

end ImportGraph

end ArtifactAtlas
