import ArtifactAtlas.Json.Printer
import ArtifactAtlas.Project.Load
import ArtifactAtlas.Proofs.Artifact.AsciiFiles
import ArtifactAtlas.Proofs.Artifact.Blame

/-!
# Why a project cannot be loaded

Whatever the build output holds, a project is loaded or the build is to blame: the
directory of the output, the file that was named as the output, or something below.
-/

namespace ArtifactAtlas

variable {top : Path} {tree : FileTree} {options : ProjectOptions}

/-- A step for each file of each group fails as the files of the index do. -/
theorem failsOnly_mapM_groups {α : Type} {allowed : Failure → Prop}
    {step : String → BuildFile → Except Failure α} {sourceKey : String}
    {files : List BuildFile} {index : BuildIndex}
    (hindex : BuildIndex.ofFiles sourceKey files = .ok index)
    (h : ∀ source, ∀ file ∈ files, FailsOnly allowed (step source file))
    (keep : String × List BuildFile → Bool) :
    FailsOnly allowed ((index.groups.toList.filter keep).mapM fun group =>
      group.2.mapM (step group.1)) := by
  refine .mapM fun group hgroup => .mapM fun file hfile => h group.1 file ?_
  exact BuildIndex.mem_files_of_mem_group hindex (List.mem_filter.mp hgroup).1 hfile

/-- And so does one for the files that declare the sources of a list. -/
theorem failsOnly_mapM_declared {α : Type} {allowed : Failure → Prop}
    {step : Nat × String × BuildFile → Except Failure α} {sourceKey : String}
    {files : List BuildFile} {index : BuildIndex}
    (hindex : BuildIndex.ofFiles sourceKey files = .ok index)
    (h : ∀ place path, ∀ origin ∈ files, FailsOnly allowed (step (place, path, origin)))
    (list : SourceList) :
    FailsOnly allowed ((list.placed.filterMap fun (place, path) =>
      (index.first? path).map (place, path, ·)).mapM step) := by
  refine .mapM fun declared hdeclared => ?_
  obtain ⟨⟨place, path⟩, -, hfirst⟩ := List.mem_filterMap.mp hdeclared
  obtain ⟨origin, horigin, rfl⟩ := Option.map_eq_some_iff.mp hfirst
  exact h place path origin (BuildIndex.mem_files_of_first? hindex horigin)

namespace Truffle

variable {index : BuildIndex} {files : List BuildFile}

theorem failsOnly_layout {origin : Path} (h : top.Below origin) (sources : List String) :
    FailsOnly (Failure.Under top) (layout index origin sources) := by
  rw [layout]
  split
  case h_1 table _ =>
    split
    case isTrue => exact (SourceList.failsOnly_ofTable h table).map _
    case isFalse => exact .ok _
  case h_2 => exact .ok _

theorem failsOnly_contract {file : BuildFile} (h : top.Below file.path) (source : String)
    (layout : Layout) :
    FailsOnly (Failure.Under top) (contract file source layout) := by
  have htext := BuildFile.failsOnly_requiredText h
  rw [contract]
  exact (htext _).bind fun _ _ => (htext _).bind fun _ _ => (htext _).bind fun _ _ =>
    (htext _).bind fun _ _ => (htext _).bind fun _ _ => .pure _

theorem failsOnly_record {origin : BuildFile} (h : top.Below origin.path) (place : Nat)
    (path : String) : FailsOnly (Failure.Under top) (record origin place path) := by
  rw [record]
  exact (BuildFile.failsOnly_requiredText h _).bind fun _ _ =>
    (BuildFile.failsOnly_required h _).bind fun _ _ => .pure _

theorem failsOnly_records (hindex : BuildIndex.ofFiles sourceKey files = .ok index)
    (h : ∀ file ∈ files, top.Below file.path) (list : SourceList) :
    FailsOnly (Failure.Under top) (records index list) := by
  rw [records]
  refine failsOnly_mapM_declared hindex (fun place path origin horigin => ?_) list
  exact (failsOnly_record (h origin horigin) place path).bind fun _ _ => .pure _

theorem failsOnly_portion (hindex : BuildIndex.ofFiles sourceKey files = .ok index)
    (h : ∀ file ∈ files, top.Below file.path) (graph : ImportGraph) (source : String)
    {file : BuildFile} (hfile : file ∈ files) :
    FailsOnly (Failure.Under top) (portion index graph source file) := by
  rw [portion]
  split
  case isTrue => exact .pure _
  case isFalse =>
    exact (failsOnly_layout (h file hfile) _).bind fun _ _ =>
      (failsOnly_contract (h file hfile) source _).bind fun _ _ =>
        (failsOnly_records hindex h _).bind fun _ _ => .pure _

theorem failsOnly_load (htree : tree.root.WellFormed) :
    FailsOnly (Failure.Under (options.outputOf .truffle)) (load tree options) := by
  rw [load]
  refine .bind (BuildIndex.failsOnly_load htree _ _) fun index hload => .bind ?_ fun _ _ => .pure _
  obtain ⟨files, hindex, hwithin⟩ := BuildIndex.exists_files_of_load htree hload
  rw [ofIndex]
  refine (failsOnly_mapM_groups hindex (fun source file hfile => ?_) _).bind fun _ _ => .pure _
  exact failsOnly_portion hindex (fun file hfile => (hwithin file hfile).below) _ source hfile

end Truffle

namespace Brownie

variable {index : BuildIndex} {files : List BuildFile}

theorem failsOnly_sourceList {file : BuildFile} (h : top.Below file.path) :
    FailsOnly (Failure.Under top) (sourceList file) := by
  rw [sourceList]
  refine .bind (BuildFile.failsOnly_required h _) fun paths _ => ?_
  split
  case h_1 => exact .error (Failure.under_build h _)
  case h_2 members _ =>
    refine .bind (.mapM fun (key, path) _ => ?_) fun table _ =>
      SourceList.failsOnly_ofTable h table
    dsimp only
    rw [tableEntry]
    split
    case h_1 => exact .ok _
    case h_2 => exact .error (Failure.under_build h _)

theorem failsOnly_contract {file : BuildFile} (h : top.Below file.path) (source : String) :
    FailsOnly (Failure.Under top) (contract file source) := by
  have htext := BuildFile.failsOnly_requiredText h
  rw [contract]
  exact (htext _).bind fun _ _ => (htext _).bind fun _ _ => (htext _).bind fun _ _ =>
    (htext _).bind fun _ _ => (htext _).bind fun _ _ =>
      (failsOnly_sourceList h).bind fun _ _ => .pure _

theorem failsOnly_record {origin : BuildFile} (h : top.Below origin.path) (place : Nat)
    (path : String) : FailsOnly (Failure.Under top) (record tree options origin place path) := by
  rw [record]
  exact (BuildFile.failsOnly_requiredText h _).bind fun _ _ => .pure _

theorem failsOnly_records (hindex : BuildIndex.ofFiles sourceKey files = .ok index)
    (h : ∀ file ∈ files, top.Below file.path) (list : SourceList) :
    FailsOnly (Failure.Under top) (records tree options index list) := by
  rw [records]
  refine failsOnly_mapM_declared hindex (fun place path origin horigin => ?_) list
  exact (failsOnly_record (h origin horigin) place path).bind fun _ _ => .pure _

theorem failsOnly_load (htree : tree.root.WellFormed) :
    FailsOnly (Failure.Under (options.outputOf .brownie)) (load tree options) := by
  rw [load]
  refine .bind (BuildIndex.failsOnly_load htree _ _) fun index hload => .bind ?_ fun _ _ => .pure _
  obtain ⟨files, hindex, hwithin⟩ := BuildIndex.exists_files_of_load htree hload
  refine failsOnly_mapM_groups hindex (fun source file hfile => ?_) _
  rw [portion]
  exact (failsOnly_contract (hwithin file hfile).below source).bind fun _ _ =>
    (failsOnly_records hindex (fun file hfile => (hwithin file hfile).below) _).bind
      fun _ _ => .pure _

end Brownie

namespace Hardhat

theorem isName_buildInfo : FileTree.Node.IsName "build-info" := by
  decide

theorem failsOnly_buildInfoPath {artifact : BuildFile} (h : top.Within artifact.path) :
    FailsOnly (Failure.Under top) (buildInfoPath tree top artifact) := by
  have hdebug : top.Below (artifact.path.withExtension "dbg.json") :=
    (h.withExtension (by decide) ⟨'d', by decide, by decide⟩).below
  rw [buildInfoPath]
  dsimp only
  split
  case isTrue => exact .throw_bind (Failure.under_build hdebug _) _
  case isFalse =>
    refine .bind (BuildFile.failsOnly_read tree hdebug) fun debugFile hread => ?_
    have hpath : top.Below debugFile.path := by
      rwa [BuildFile.path_of_read hread]
    refine .bind (BuildFile.failsOnly_requiredText hpath _) fun pointer _ => ?_
    split
    case h_1 => exact .pure _
    case h_2 => exact .error (Failure.under_build hdebug _)

/-- A build info has a name of its own, whatever a debug file says. -/
theorem below_of_buildInfoPath {artifact : BuildFile} {path : Path}
    (h : buildInfoPath tree top artifact = .ok path) : top.Below path := by
  rw [buildInfoPath] at h
  dsimp only at h
  split at h
  case isTrue => cases h
  case isFalse =>
    obtain ⟨debugFile, -, h⟩ := bind_eq_ok_iff.mp h
    obtain ⟨pointer, -, h⟩ := bind_eq_ok_iff.mp h
    split at h
    case h_1 name hname =>
      cases pure_eq_ok_iff.mp h
      exact ((Path.Below.refl _).join_name isName_buildInfo).join_name
        (Path.isName_of_fileName? hname)
    case h_2 => cases h

theorem failsOnly_readInfo {path : Path} (h : top.Below path) :
    FailsOnly (Failure.Under top) (BuildInfo.read tree path) := by
  rw [BuildInfo.read]
  refine .bind (BuildFile.failsOnly_read tree h) fun file _ => ?_
  split
  case h_1 sources _ =>
    exact (SourceList.failsOnly_ofOutput h sources).bind fun _ _ => .pure _
  case h_2 => exact .error (Failure.under_build h _)

theorem path_of_readInfo {path : Path} {info : BuildInfo}
    (h : BuildInfo.read tree path = .ok info) : info.file.path = path := by
  rw [BuildInfo.read, bind_eq_ok_iff] at h
  obtain ⟨file, hread, h⟩ := h
  split at h
  case h_1 =>
    obtain ⟨list, -, h⟩ := bind_eq_ok_iff.mp h
    cases pure_eq_ok_iff.mp h
    exact BuildFile.path_of_read hread
  case h_2 => cases h

theorem failsOnly_contract {info : BuildInfo} (h : top.Below info.file.path)
    (source name : String) : FailsOnly (Failure.Under top) (info.contract source name) := by
  rw [BuildInfo.contract]
  split
  case h_1 data _ => exact CompilerOutput.failsOnly_contract h name source data _
  case h_2 => exact .error (Failure.under_build h _)

theorem failsOnly_portion {artifact : BuildFile}
    (h : (options.outputOf .hardhat).Within artifact.path) (source : String) :
    FailsOnly (Failure.Under (options.outputOf .hardhat))
      (portion tree options source artifact) := by
  rw [portion]
  refine .bind (BuildFile.failsOnly_requiredText h.below _) fun name _ =>
    .bind (failsOnly_buildInfoPath h) fun path hpath => ?_
  have hbelow := below_of_buildInfoPath hpath
  refine .bind (failsOnly_readInfo hbelow) fun info hread => ?_
  rw [← path_of_readInfo hread] at hbelow
  exact (failsOnly_contract hbelow source name).bind fun _ _ => .pure _

theorem failsOnly_artifactFiles (htree : tree.root.WellFormed) :
    FailsOnly (Failure.Under top) (artifactFiles tree top) := by
  rw [artifactFiles]
  refine .bind (BuildFile.failsOnly_readAll htree _) fun files _ => ?_
  dsimp only
  split
  case isTrue => exact .throw_bind (Failure.under_build (.refl _) _) _
  case isFalse => exact .pure _

theorem within_of_artifactFiles (htree : tree.root.WellFormed) {files : List BuildFile}
    (h : artifactFiles tree top = .ok files) : ∀ file ∈ files, top.Within file.path := by
  rw [artifactFiles, bind_eq_ok_iff] at h
  obtain ⟨all, hall, h⟩ := h
  dsimp only at h
  split at h
  case isTrue => cases h
  case isFalse =>
    cases pure_eq_ok_iff.mp h
    exact fun file hfile =>
      BuildFile.within_of_readAll htree hall file (List.mem_filter.mp hfile).1

theorem failsOnly_load (htree : tree.root.WellFormed) :
    FailsOnly (Failure.Under (options.outputOf .hardhat)) (load tree options) := by
  rw [load]
  refine .bind (failsOnly_artifactFiles htree) fun files hfiles => ?_
  have hwithin := within_of_artifactFiles htree hfiles
  have hofFiles : FailsOnly (Failure.Under (options.outputOf .hardhat))
      (BuildIndex.ofFiles "sourceName" files) :=
    BuildIndex.failsOnly_ofFiles fun file hfile => (hwithin file hfile).below
  refine hofFiles.bind fun index hindex => .bind ?_ fun _ _ => .pure _
  exact failsOnly_mapM_groups hindex
    (fun source file hfile => failsOnly_portion (hwithin file hfile) source) _

end Hardhat

namespace Solidity

/-- The documents that a target leads to, which may be none. -/
def found (tree : FileTree) (target : Path) : Except Failure (List BuildFile) :=
  if tree.isFile target then (BuildFile.read tree target).map ([·])
  else
    (BuildFile.readAll tree target fun _ => false).map fun files => files.filter fun file =>
      ((outputOf file.data).get? "contracts").isSome

theorem documents_eq (tree : FileTree) (target : Path) :
    documents tree target = found tree target >>= fun files =>
      if files.isEmpty then .error (.build target .noOutput) else .ok files := by
  rw [documents, found]
  split <;> rfl

theorem failsOnly_documents (htree : tree.root.WellFormed) :
    FailsOnly (Failure.Under top) (documents tree top) := by
  rw [documents_eq, found]
  refine .bind ?_ fun files _ => ?_
  · split
    case isTrue => exact (BuildFile.failsOnly_read tree (.refl _)).map _
    case isFalse => exact (BuildFile.failsOnly_readAll htree _).map _
  · split
    case isTrue => exact .error (Failure.under_build (.refl _) _)
    case isFalse => exact .ok files

theorem below_of_documents (htree : tree.root.WellFormed) {files : List BuildFile}
    (h : documents tree top = .ok files) : ∀ file ∈ files, top.Below file.path := by
  rw [documents_eq, bind_eq_ok_iff] at h
  obtain ⟨_, hfound, h⟩ := h
  split at h
  case isTrue => cases h
  case isFalse =>
    cases h
    rw [found] at hfound
    split at hfound
    case isTrue =>
      obtain ⟨file, hread, rfl⟩ := map_eq_ok_iff.mp hfound
      rw [List.forall_mem_singleton, BuildFile.path_of_read hread]
      exact .refl _
    case isFalse =>
      obtain ⟨all, hall, rfl⟩ := map_eq_ok_iff.mp hfound
      exact fun file hfile =>
        (BuildFile.within_of_readAll htree hall file (List.mem_filter.mp hfile).1).below

theorem failsOnly_contracts {origin : Path} (h : top.Below origin) (sourceList : SourceList)
    (bySource : List (String × Json)) :
    FailsOnly (Failure.Under top) (contracts options origin sourceList bySource) := by
  rw [contracts]
  refine .mapM fun (source, name, data) _ => ?_
  exact (CompilerOutput.failsOnly_contract h name source data sourceList).bind fun _ _ => .pure _

theorem failsOnly_portion {document : BuildFile} (h : top.Below document.path) :
    FailsOnly (Failure.Under top) (portion tree options document) := by
  rw [portion]
  dsimp only
  split
  case h_1 bySource _ =>
    refine .bind (SourceList.failsOnly_ofOutput h _) fun sourceList _ =>
      .bind (failsOnly_contracts h sourceList bySource) fun contracts _ => ?_
    split
    case isTrue => exact .pure _
    case isFalse => exact .pure _
  case h_2 => exact .error (Failure.under_build h _)

theorem failsOnly_load (htree : tree.root.WellFormed) :
    FailsOnly (Failure.Under (options.outputOf .solidity)) (load tree options) := by
  rw [load]
  refine .bind (failsOnly_documents htree) fun files hfiles => .bind (.mapM fun file hfile => ?_)
    fun _ _ => .pure _
  exact failsOnly_portion (below_of_documents htree hfiles file hfile)

end Solidity

/-! ## Every tool -/

namespace BuildTool

/--
A project is loaded, or the build is to blame for it: the place of the output or one
below it.
-/
theorem load_succeeds_or_blames_output (tool : BuildTool) (tree : FileTree)
    (htree : tree.root.WellFormed) (options : ProjectOptions) :
    (∃ artifacts, tool.load tree options = .ok artifacts) ∨
      ∃ failure place, tool.load tree options = .error failure ∧ failure.isBuild = true ∧
        failure.place? = some place ∧
        ∃ names : List String,
          place.components = (options.outputOf tool).components ++ names.map .name := by
  have hfails : FailsOnly (Failure.Under (options.outputOf tool)) (tool.load tree options) := by
    cases tool with
    | solidity => exact Solidity.failsOnly_load htree
    | truffle => exact Truffle.failsOnly_load htree
    | hardhat => exact Hardhat.failsOnly_load htree
    | brownie => exact Brownie.failsOnly_load htree
  cases hload : tool.load tree options with
  | ok artifacts => exact .inl ⟨artifacts, rfl⟩
  | error failure =>
      obtain ⟨place, hplace, hbelow⟩ := hfails failure hload
      exact .inr ⟨failure, place, rfl, Failure.isBuild_iff.mpr ⟨place, hplace⟩, hplace, hbelow⟩

/-- An artifact whose debug file names a build info that is not there. -/
def danglingInfo : FileTree :=
  let text (members : List (String × Json)) : FileTree.Node :=
    .ofAscii (Json.compactChars (.object members))
  { root := .directory [("artifacts", .directory [
      ("A.dbg.json", text [("buildInfo", .string "../build-info/gone.json")]),
      ("A.json", text [("contractName", .string "A"), ("sourceName", .string "A.sol")])])] }

theorem load_danglingInfo_blames_info :
    danglingInfo.root.WellFormed ∧
      ∃ failure, hardhat.load danglingInfo ⟨⟨"/"⟩, none, .all, none⟩ = .error failure ∧
        failure.isBuild = true ∧
        failure.place? = some ⟨"/artifacts/build-info/gone.json"⟩ := by
  have htree : danglingInfo.root.WellFormed := by decide +kernel
  have hblamed : (match hardhat.load danglingInfo ⟨⟨"/"⟩, none, .all, none⟩ with
      | .ok _ => none
      | .error failure => failure.place?) = some ⟨"/artifacts/build-info/gone.json"⟩ := by
    -- the tree gets a name, so that it is only evaluated at the end
    obtain ⟨tree, hname⟩ : ∃ tree, tree = danglingInfo := ⟨_, rfl⟩
    rw [← hname]
    unfold BuildTool.load Hardhat.load Hardhat.artifactFiles Hardhat.portion
      Hardhat.BuildInfo.read Hardhat.buildInfoPath BuildFile.readAll
    rw [BuildFile.read_eq_readAscii, hname]
    decide +kernel
  refine ⟨htree, ?_⟩
  rcases load_succeeds_or_blames_output hardhat danglingInfo htree ⟨⟨"/"⟩, none, .all, none⟩ with
    ⟨artifacts, hload⟩ | ⟨failure, place, hload, hbuild, hplace, -⟩
  · rw [hload] at hblamed
    cases hblamed
  · rw [hload] at hblamed
    exact ⟨failure, hload, hbuild, hblamed⟩

end BuildTool

end ArtifactAtlas
