import ArtifactAtlas.Json.Printer
import ArtifactAtlas.Project.Hardhat
import ArtifactAtlas.Project.Solidity
import ArtifactAtlas.Proofs.Artifact.AsciiFiles
import ArtifactAtlas.Proofs.Artifact.Gathering
import ArtifactAtlas.Proofs.Artifact.Steps

/-!
# Compilations

Where one file holds a whole run of the compiler, its contracts share one source list,
and their maps point into the texts that this run was given.  Several runs may have
been given different texts for one path, but a project has one record of it: the text
is that of the first run, in the order of loading, that lists the path.
-/

namespace ArtifactAtlas

/-- One run of the compiler: the contracts by the sources that declare them, the source
list of all of them, and the text that was given for a path. -/
structure Compilation where
  contracts : List (String × Contract)
  sourceList : SourceList
  text? : String → Option String

namespace Compilation

def Declares (compilation : Compilation) (contract : Contract) : Prop :=
  ∃ source, (source, contract) ∈ compilation.contracts

def listedText? (compilation : Compilation) (path : String) : Option String :=
  if path ∈ compilation.sourceList.named then compilation.text? path else none

structure Adds (compilation : Compilation) (portion : Portion) : Prop where
  contracts : portion.contracts = compilation.contracts
  lists : ∀ contract, compilation.Declares contract →
    contract.sourceList = compilation.sourceList
  texts : ∀ path, (Entries.lookup path portion.sources).map (·.source) =
    compilation.listedText? path

end Compilation

/-- The contracts are those of the compilations.  The text of a source is the one that
the first compilation to list it was given, so a contract finds the text that it was
compiled from unless an earlier compilation was given another. -/
structure Artifacts.ReadFrom (artifacts : Artifacts) (compilations : List Compilation) :
    Prop where
  contracts : ∀ contract, contract ∈ artifacts.allContracts ↔
    ∃ compilation ∈ compilations, compilation.Declares contract
  first : ∀ path, artifacts.sourceText? path = compilations.findSome? (·.listedText? path)
  own : ∀ front compilation back, compilations = front ++ compilation :: back →
    ∀ contract, compilation.Declares contract →
    ∀ path ∈ contract.sourceList.named, ∀ text, compilation.text? path = some text →
      artifacts.sourceText? path = some text ∨
      ∃ earlier ∈ front, ∃ other, earlier.listedText? path = some other ∧ other ≠ text ∧
        artifacts.sourceText? path = some other

namespace Compilation

/-! ## Gathering compilations -/

variable {compilations : List Compilation} {portions : List Portion}

theorem sourceText?_gather (h : List.Forall₂ Adds compilations portions) (path : String) :
    (Artifacts.gather portions).sourceText? path =
      compilations.findSome? (·.listedText? path) := by
  rw [Artifacts.sourceText?, Artifacts.get?_sources_gather]
  induction h with
  | nil => rfl
  | cons hadds _ ih =>
      rw [List.findSome?_cons, List.findSome?_cons, ← hadds.texts path, ← ih]
      cases Entries.lookup path _ <;> rfl

theorem mem_allContracts_iff (h : List.Forall₂ Adds compilations portions)
    (contract : Contract) :
    contract ∈ (Artifacts.gather portions).allContracts ↔
      ∃ compilation ∈ compilations, compilation.Declares contract := by
  rw [Artifacts.mem_allContracts_gather]
  induction h with
  | nil => simp
  | cons hadds _ ih => simp only [List.exists_mem_cons_iff, ih, Declares, hadds.contracts]

theorem lists_of_forall₂_adds (h : List.Forall₂ Adds compilations portions) :
    ∀ compilation ∈ compilations, ∀ contract, compilation.Declares contract →
      contract.sourceList = compilation.sourceList := by
  induction h with
  | nil => simp
  | cons hadds _ ih => exact List.forall_mem_cons.mpr ⟨hadds.lists, ih⟩

theorem readFrom_gather (h : List.Forall₂ Adds compilations portions) :
    (Artifacts.gather portions).ReadFrom compilations where
  contracts := mem_allContracts_iff h
  first := sourceText?_gather h
  own := by
    rintro front compilation back rfl contract hdeclares path hpath text htext
    have hlist : contract.sourceList = compilation.sourceList :=
      lists_of_forall₂_adds h compilation (by simp) contract hdeclares
    have hlisted : compilation.listedText? path = some text := by
      rw [listedText?, if_pos (hlist ▸ hpath), htext]
    rw [sourceText?_gather h, List.findSome?_append, List.findSome?_cons, hlisted]
    cases hfront : front.findSome? (·.listedText? path) with
    | none => exact .inl rfl
    | some other =>
        obtain ⟨earlier, hearlier, hother⟩ := List.exists_of_findSome?_eq_some hfront
        by_cases heq : other = text
        · exact .inl (by rw [heq]; rfl)
        · exact .inr ⟨earlier, hearlier, other, hother, heq, rfl⟩

end Compilation

theorem CompilerOutput.sourceList_of_contract {origin : Path} {name source : String}
    {data : Json} {sourceList : SourceList} {result : Contract}
    (h : contract origin name source data sourceList = .ok result) :
    result.sourceList = sourceList := by
  simp only [contract, bind_eq_ok_iff, pure_eq_ok_iff] at h
  obtain ⟨_, -, _, -, _, -, _, -, rfl⟩ := h
  rfl

/-! ## Build infos -/

namespace Hardhat

/-- The text of a source in the input of a compilation. -/
def BuildInfo.text? (info : BuildInfo) (path : String) : Option String :=
  CompilerOutput.content? ((info.file.data.path? ["input", "sources"]).getD .null) path

/-- The compilation of an artifact file: the one whose build info its debug file names. -/
def compilation (tree : FileTree) (options : ProjectOptions) (source : String)
    (artifact : BuildFile) : Except Failure Compilation := do
  let name ← artifact.requiredText "contractName"
  let info ←
    BuildInfo.read tree (← buildInfoPath tree (options.outputOf .hardhat) artifact)
  let contract ← info.contract source name
  return ⟨[(source, contract)], info.sourceList, info.text?⟩

/-- The compilations of the artifact files of included sources, in the order of loading. -/
def compilations (tree : FileTree) (options : ProjectOptions) :
    Except Failure (List Compilation) := do
  let files ← artifactFiles tree (options.outputOf .hardhat)
  let index ← BuildIndex.ofFiles "sourceName" files
  let declared := index.groups.toList.filter fun (source, _) => options.includes source
  let artifacts := declared.flatMap fun (source, files) => files.map (source, ·)
  artifacts.mapM fun (source, artifact) => compilation tree options source artifact

theorem BuildInfo.map_source_record? (info : BuildInfo) (tree : FileTree)
    (options : ProjectOptions) (index : Nat) (path : String) :
    (info.record? tree options index path).map (·.source) = info.text? path := by
  rw [record?, text?]
  cases CompilerOutput.content? ((info.file.data.path? ["input", "sources"]).getD .null) path <;>
    rfl

theorem BuildInfo.sourceList_of_contract {info : BuildInfo} {source name : String}
    {result : Contract} (h : info.contract source name = .ok result) :
    result.sourceList = info.sourceList := by
  rw [BuildInfo.contract] at h
  split at h
  case h_1 => exact CompilerOutput.sourceList_of_contract h
  case h_2 => cases h

theorem exists_compilation_of_portion {tree : FileTree} {options : ProjectOptions}
    {source : String} {artifact : BuildFile} {added : Portion}
    (h : portion tree options source artifact = .ok added) :
    ∃ compiled, compilation tree options source artifact = .ok compiled ∧
      compiled.Adds added := by
  simp only [portion, compilation, bind_eq_ok_iff, pure_eq_ok_iff] at h ⊢
  obtain ⟨name, hname, path, hpath, info, hinfo, contract, hcontract, rfl⟩ := h
  refine ⟨_, ⟨name, hname, path, hpath, info, hinfo, contract, hcontract, rfl⟩, rfl, ?_, ?_⟩
  · rintro declared ⟨source', hdeclared⟩
    cases List.mem_singleton.mp hdeclared
    exact info.sourceList_of_contract hcontract
  · exact CompilerOutput.map_source_lookup_records (info.map_source_record? tree options)

theorem readFrom_compilations {tree : FileTree} {options : ProjectOptions}
    {artifacts : Artifacts} (h : load tree options = .ok artifacts) :
    ∃ compiled, compilations tree options = .ok compiled ∧ artifacts.ReadFrom compiled := by
  simp only [load, bind_eq_ok_iff, pure_eq_ok_iff] at h
  obtain ⟨files, hfiles, index, hindex, portions, hportions, rfl⟩ := h
  have hsteps := forall₂_of_mapM_groups (portion tree options) hportions
  obtain ⟨compiled, hcompiled, hadds⟩ := exists_mapM_eq_ok
    (fun (source, artifact) => compilation tree options source artifact) hsteps
    fun _ _ => exists_compilation_of_portion
  have hread := Compilation.readFrom_gather hadds
  -- loading sets a version, of which `ReadFrom` says nothing
  refine ⟨compiled, ?_, hread.contracts, hread.first, hread.own⟩
  simp only [compilations, bind_eq_ok_iff]
  exact ⟨files, hfiles, index, hindex, hcompiled⟩

end Hardhat

/-! ## Documents -/

namespace Solidity

/-- The text of a source in the input of a document or, if there is none, on disk. -/
def text? (tree : FileTree) (options : ProjectOptions) (document : Json) (path : String) :
    Option String :=
  (CompilerOutput.content? ((document.path? ["input", "sources"]).getD .null) path).or
    (tree.readText ((Path.mk path).absoluteFrom options.directory)).toOption

/-- The compilation of a document.  If no contract of it is included, it lists nothing. -/
def compilation (tree : FileTree) (options : ProjectOptions) (document : BuildFile) :
    Except Failure Compilation := do
  let output := outputOf document.data
  let some bySource := (output.get? "contracts").bind Json.object?
    | throw (.build document.path .noContracts)
  let sourceList ← SourceList.ofOutput document.path ((output.get? "sources").getD .null)
  let contracts ← contracts options document.path sourceList bySource
  let listed := if contracts.isEmpty then [] else sourceList
  return ⟨contracts, listed, text? tree options document.data⟩

def compilations (tree : FileTree) (options : ProjectOptions) :
    Except Failure (List Compilation) := do
  let documents ← documents tree (options.outputOf .solidity)
  documents.mapM (compilation tree options)

theorem map_source_record? (tree : FileTree) (options : ProjectOptions)
    (document outputSources : Json) (index : Nat) (path : String) :
    (record? tree options document outputSources index path).map (·.source) =
      text? tree options document path := by
  rw [record?, text?]
  cases (CompilerOutput.content? ((document.path? ["input", "sources"]).getD .null) path).or
    (tree.readText ((Path.mk path).absoluteFrom options.directory)).toOption <;> rfl

theorem sourceList_of_mem_contracts {options : ProjectOptions} {origin : Path}
    {sourceList : SourceList} {bySource : List (String × Json)}
    {results : List (String × Contract)}
    (h : contracts options origin sourceList bySource = .ok results)
    {result : String × Contract} (hresult : result ∈ results) :
    result.2.sourceList = sourceList := by
  simp only [contracts, mapM_eq_ok_iff] at h
  obtain ⟨item, -, hitem⟩ := exists_of_mem_of_forall₂ h hresult
  simp only [bind_eq_ok_iff, pure_eq_ok_iff] at hitem
  obtain ⟨contract, hcontract, rfl⟩ := hitem
  exact CompilerOutput.sourceList_of_contract hcontract

theorem exists_compilation_of_portion {tree : FileTree} {options : ProjectOptions}
    {document : BuildFile} {added : Portion}
    (h : portion tree options document = .ok added) :
    ∃ compiled, compilation tree options document = .ok compiled ∧ compiled.Adds added := by
  cases hbySource : ((outputOf document.data).get? "contracts").bind Json.object? with
  | none =>
      simp only [portion, hbySource] at h
      cases h
  | some bySource =>
      simp only [portion, compilation, hbySource, bind_eq_ok_iff, pure_eq_ok_iff] at h ⊢
      obtain ⟨sourceList, hsourceList, results, hresults, h⟩ := h
      refine ⟨_, ⟨sourceList, hsourceList, results, hresults, rfl⟩, ?_⟩
      cases results with
      | nil =>
          cases pure_eq_ok_iff.mp h
          refine ⟨rfl, ?_, fun _ => rfl⟩
          rintro contract ⟨source, hcontract⟩
          cases hcontract
      | cons first rest =>
          cases pure_eq_ok_iff.mp h
          refine ⟨rfl, ?_, ?_⟩
          · rintro contract ⟨source, hcontract⟩
            exact sourceList_of_mem_contracts hresults hcontract
          · exact CompilerOutput.map_source_lookup_records
              (map_source_record? tree options document.data _)

theorem readFrom_compilations {tree : FileTree} {options : ProjectOptions}
    {artifacts : Artifacts} (h : load tree options = .ok artifacts) :
    ∃ compiled, compilations tree options = .ok compiled ∧ artifacts.ReadFrom compiled := by
  simp only [load, bind_eq_ok_iff, pure_eq_ok_iff] at h
  obtain ⟨documents, hdocuments, portions, hportions, rfl⟩ := h
  obtain ⟨compiled, hcompiled, hadds⟩ := exists_mapM_eq_ok (compilation tree options)
    (mapM_eq_ok_iff.mp hportions) fun _ _ => exists_compilation_of_portion
  have hread := Compilation.readFrom_gather hadds
  -- loading sets a version, of which `ReadFrom` says nothing
  refine ⟨compiled, ?_, hread.contracts, hread.first, hread.own⟩
  simp only [compilations, bind_eq_ok_iff]
  exact ⟨documents, hdocuments, hcompiled⟩

end Solidity

/-! ## The first text of a path -/

namespace Compilation

/--
A project that is loaded from build infos, or from documents of the compiler, has the
contracts of all compilations, and of each listed source the text that the first
compilation to list it was given.
-/
theorem sources_have_first_compiled_text (tree : FileTree) (options : ProjectOptions) :
    (∀ artifacts, Hardhat.load tree options = .ok artifacts →
      ∃ compiled, Hardhat.compilations tree options = .ok compiled ∧
        artifacts.ReadFrom compiled) ∧
    ∀ artifacts, Solidity.load tree options = .ok artifacts →
      ∃ compiled, Solidity.compilations tree options = .ok compiled ∧
        artifacts.ReadFrom compiled :=
  ⟨fun _ => Hardhat.readFrom_compilations, fun _ => Solidity.readFrom_compilations⟩

/-- The document of a run for one contract and a library. -/
def runDocument (name libraryText : String) : List Char :=
  let code : Json := .object [("object", .string "60"), ("sourceMap", .string "0:1:1")]
  let output : Json := .object [("evm", .object [("bytecode", code), ("deployedBytecode", code)])]
  Json.compactChars (.object [
    ("input", .object [
      ("sources", .object [("L", .object [("content", .string libraryText)])])]),
    ("output", .object [
      ("sources", .object [(name, .object []), ("L", .object [])]),
      ("contracts", .object [(name, .object [(name, output)])])])])

/-- Two runs of the compiler that were given different texts of one library, once as
build infos and once as documents. -/
def twoVersions : FileTree :=
  let first := FileTree.Node.ofAscii (runDocument "A" "library L")
  let second := FileTree.Node.ofAscii (runDocument "B" "library New")
  let artifact (name : String) := FileTree.Node.ofAscii (Json.compactChars
    (.object [("contractName", .string name), ("sourceName", .string name)]))
  let pointer (file : String) := FileTree.Node.ofAscii (Json.compactChars
    (.object [("buildInfo", .string file)]))
  { root := .directory [
      ("artifacts", .directory [
        ("A.dbg.json", pointer "A.json"), ("A.json", artifact "A"),
        ("B.dbg.json", pointer "B.json"), ("B.json", artifact "B"),
        ("build-info", .directory [("A.json", first), ("B.json", second)])]),
      ("out", .directory [("A.json", first), ("B.json", second)])] }

def atRoot : ProjectOptions := ⟨⟨"/"⟩, none, .all, none⟩

def digest (compilation : Compilation) : List (String × Contract) × SourceList × Option String :=
  (compilation.contracts, compilation.sourceList, compilation.text? "L")

def contractOf (name : String) : Contract :=
  ⟨name, "60", "60", "0:1:1", "0:1:1", [name, "L"], name⟩

theorem load_twoVersions :
    (Hardhat.load twoVersions atRoot).toOption.isSome ∧
      (Solidity.load twoVersions atRoot).toOption.isSome := by
  -- the tree gets a name, so that it is only evaluated at the end
  obtain ⟨tree, htree⟩ : ∃ tree, tree = twoVersions := ⟨_, rfl⟩
  rw [← htree]
  unfold Hardhat.load Hardhat.artifactFiles Hardhat.portion Hardhat.BuildInfo.read
    Hardhat.buildInfoPath Solidity.load Solidity.documents BuildFile.readAll
  rw [BuildFile.read_eq_readAscii, htree]
  decide +kernel

theorem compilations_twoVersions :
    (Hardhat.compilations twoVersions atRoot).toOption.map (·.map digest) = some [
      ([("A", contractOf "A")], ["A", "L"], some "library L"),
      ([("B", contractOf "B")], ["B", "L"], some "library New")] := by
  obtain ⟨tree, htree⟩ : ∃ tree, tree = twoVersions := ⟨_, rfl⟩
  rw [← htree]
  unfold Hardhat.compilations Hardhat.artifactFiles Hardhat.compilation Hardhat.BuildInfo.read
    Hardhat.buildInfoPath BuildFile.readAll
  rw [BuildFile.read_eq_readAscii, htree]
  decide +kernel

theorem twoVersions_is_readFrom_runs :
    (∃ artifacts compiled, Hardhat.load twoVersions atRoot = .ok artifacts ∧
      Hardhat.compilations twoVersions atRoot = .ok compiled ∧
      artifacts.ReadFrom compiled ∧
      compiled.map (·.text? "L") = [some "library L", some "library New"]) ∧
    ∃ artifacts compiled, Solidity.load twoVersions atRoot = .ok artifacts ∧
      Solidity.compilations twoVersions atRoot = .ok compiled ∧
      artifacts.ReadFrom compiled := by
  obtain ⟨hhardhat, hsolidity⟩ := sources_have_first_compiled_text twoVersions atRoot
  constructor
  · obtain ⟨artifacts, hartifacts⟩ := isSome_toOption_iff.mp load_twoVersions.1
    obtain ⟨compiled, hcompiled, hread⟩ := hhardhat artifacts hartifacts
    obtain ⟨_, heq, hdigests⟩ := toOption_map_eq_some_iff.mp compilations_twoVersions
    cases hcompiled.symm.trans heq
    have htexts := congrArg (List.map fun digest => digest.2.2) hdigests
    rw [List.map_map] at htexts
    exact ⟨artifacts, compiled, hartifacts, hcompiled, hread, htexts⟩
  · obtain ⟨artifacts, hartifacts⟩ := isSome_toOption_iff.mp load_twoVersions.2
    obtain ⟨compiled, hcompiled, hread⟩ := hsolidity artifacts hartifacts
    exact ⟨artifacts, compiled, hartifacts, hcompiled, hread⟩

/-- A contract of the second run finds the library that only the first run was given. -/
theorem second_run_is_read_against_first_text :
    ∃ artifacts first second, Hardhat.load twoVersions atRoot = .ok artifacts ∧
      Hardhat.compilations twoVersions atRoot = .ok [first, second] ∧
      contractOf "B" ∈ artifacts.allContracts ∧ second.Declares (contractOf "B") ∧
      "L" ∈ (contractOf "B").sourceList.named ∧
      second.text? "L" = some "library New" ∧
      artifacts.sourceText? "L" = some "library L" := by
  obtain ⟨artifacts, hartifacts⟩ := isSome_toOption_iff.mp load_twoVersions.1
  obtain ⟨compiled, hcompiled, hread⟩ := Hardhat.readFrom_compilations hartifacts
  obtain ⟨_, heq, hdigests⟩ := toOption_map_eq_some_iff.mp compilations_twoVersions
  cases hcompiled.symm.trans heq
  obtain ⟨first, _, rfl, hfirst, hrest⟩ := List.map_eq_cons_iff.mp hdigests
  obtain ⟨second, _, rfl, hsecond, hnil⟩ := List.map_eq_cons_iff.mp hrest
  cases List.map_eq_nil_iff.mp hnil
  have hlist : first.sourceList = ["A", "L"] := congrArg (·.2.1) hfirst
  have htext : first.text? "L" = some "library L" := congrArg (·.2.2) hfirst
  have hcontracts : second.contracts = [("B", contractOf "B")] := congrArg (·.1) hsecond
  have hdeclares : second.Declares (contractOf "B") := ⟨"B", by simp [hcontracts]⟩
  refine ⟨artifacts, first, second, hartifacts, hcompiled, ?_, hdeclares, by decide,
    congrArg (·.2.2) hsecond, ?_⟩
  · exact (hread.contracts _).mpr ⟨second, by simp, hdeclares⟩
  · rw [hread.first, List.findSome?_cons, listedText?, hlist, htext]
    rfl

end Compilation

end ArtifactAtlas
