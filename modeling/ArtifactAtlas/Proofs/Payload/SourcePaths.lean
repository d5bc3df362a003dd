import ArtifactAtlas.Payload.Documents
import ArtifactAtlas.Project.Brownie
import ArtifactAtlas.Proofs.Artifact.IndexTable

/-!
# Source paths of a job

A job has the source list of a contract as a table of the places that are not empty.  So
an index table that was laid out as a list is the same table again in the job, and a list
is laid out again from the job, but for the gaps at its end.
-/

namespace ArtifactAtlas

namespace Brownie

/-- The entry of an index table that a member of a file's table stands for. -/
def Writes (member : String × Json) (entry : Nat × String) : Prop :=
  Numeral.size? member.1.toList = some entry.1 ∧ member.2 = .string entry.2

/-- The index table of a file, in the order of the document. -/
structure HasTable (file : BuildFile) (table : List (Nat × String)) : Prop where
  members : ∃ members, file.data.get? "allSourcePaths" = some (.object members) ∧
    List.Forall₂ Writes members table
  apart : (table.map Prod.fst).Nodup
  inRange : ∀ entry ∈ table, entry.1 ≤ 65535
  named : ∀ entry ∈ table, entry.2 ≠ ""

theorem tableEntry_of_writes (origin : Path) {member : String × Json} {entry : Nat × String}
    (h : Writes member entry) : tableEntry origin member.1 member.2 = .ok entry := by
  rw [tableEntry, h.1, h.2]
  rfl

theorem HasTable.sourceList_eq_ok {file : BuildFile} {table : List (Nat × String)}
    (h : HasTable file table) {list : SourceList}
    (hlist : SourceList.ofTable file.path table = .ok list) : sourceList file = .ok list := by
  obtain ⟨members, hmembers, hwrites⟩ := h.members
  have hrequired : file.required "allSourcePaths" = .ok (.object members) := by
    rw [BuildFile.required, hmembers]
    rfl
  rw [sourceList, bind_eq_ok_iff]
  refine ⟨_, hrequired, bind_eq_ok_iff.mpr ⟨table, mapM_eq_ok_iff.mpr ?_, hlist⟩⟩
  exact hwrites.imp fun _ _ => tableEntry_of_writes file.path

theorem HasTable.exists_sourceList {file : BuildFile} {table : List (Nat × String)}
    (h : HasTable file table) :
    ∃ list, sourceList file = .ok list ∧ list.placed.Perm table := by
  have hlist := SourceList.ofTable_eq_ok file.path h.inRange
  have hperm := SourceList.perm_placed_ofTable hlist h.apart
  have hnamed : table.filter (·.2 ≠ "") = table :=
    List.filter_eq_self.mpr fun entry hentry => by simpa using h.named entry hentry
  rw [hnamed] at hperm
  exact ⟨_, h.sourceList_eq_ok hlist, hperm⟩

end Brownie

namespace Payload

theorem toList_sourcePaths (contract : Contract) :
    (jobContract contract).sourcePaths.toList = contract.sourceList.placed :=
  OrderedMap.toList_ofList_of_sorted (SourceList.sorted_placed contract.sourceList)

/--
The source paths of a job are the index table that a source list was laid out from, in
whatever order, and lay out every source list again that does not reach beyond the largest
index, without the gaps at its end.
-/
theorem job_keeps_index_tables (payload : Payload) :
    (∀ file table, Brownie.HasTable file table →
      ∃ list, Brownie.sourceList file = .ok list ∧
        List.Forall₂ (fun contract compiled =>
            contract.sourceList = list → compiled.sourcePaths.toList.Perm table)
          payload.contracts payload.job.contracts) ∧
    ∀ origin,
      List.Forall₂ (fun contract compiled =>
          contract.sourceList.length ≤ 65536 →
            SourceList.ofTable origin compiled.sourcePaths.toList =
              .ok (contract.sourceList.rdropWhile (· = "")))
        payload.contracts payload.job.contracts := by
  simp only [job, List.forall₂_map_right_iff, List.forall₂_same, toList_sourcePaths]
  constructor
  · intro file table htable
    obtain ⟨list, hlist, hperm⟩ := htable.exists_sourceList
    refine ⟨list, hlist, ?_⟩
    rintro contract - rfl
    exact hperm
  · intro origin contract _ hlength
    exact SourceList.ofTable_placed origin contract.sourceList hlength

/-- A file with a table that begins with its last index and leaves one out. -/
def signedTable : BuildFile where
  path := ⟨"build/contracts/A.json"⟩
  data := .object [("allSourcePaths", .object [("+2", .string "B"), ("00", .string "A")])]

/-- A payload with the list that this table is laid out as, and one with gaps at its end. -/
def tabledLists : Payload where
  contracts := [
    ⟨"A", "60", "60", "0:1:0", "0:1:0", ["A", "", "B"], "A"⟩,
    ⟨"B", "60", "60", "0:1:0", "0:1:0", ["", "B", "", ""], "B"⟩]
  sources := .empty
  solcVersion := none
  skipped := []
  failed := []

theorem tabledLists_keep_signedTable :
    Brownie.HasTable signedTable [(2, "B"), (0, "A")] ∧
    Brownie.sourceList signedTable = .ok ["A", "", "B"] ∧
    tabledLists.job.contracts.map (·.sourcePaths.toList) = [[(0, "A"), (2, "B")], [(1, "B")]] ∧
    [(0, "A"), (2, "B")].Perm [(2, "B"), (0, "A")] ∧
    SourceList.ofTable signedTable.path [(1, "B")] = .ok ["", "B"] := by
  have htable : Brownie.HasTable signedTable [(2, "B"), (0, "A")] :=
    { members := ⟨_, rfl, .cons ⟨by decide, rfl⟩ (.cons ⟨by decide, rfl⟩ .nil)⟩
      apart := by decide
      inRange := by decide
      named := by decide }
  have hlist : Brownie.sourceList signedTable = .ok ["A", "", "B"] := by decide +kernel
  obtain ⟨hkeeps, hagain⟩ := job_keeps_index_tables tabledLists
  obtain ⟨list, hsame, hpaths⟩ := hkeeps signedTable _ htable
  rw [hlist, Except.ok.injEq] at hsame
  obtain ⟨hfirst, -⟩ := List.forall₂_cons.mp hpaths
  obtain ⟨-, hrest⟩ := List.forall₂_cons.mp (hagain signedTable.path)
  obtain ⟨hsecond, -⟩ := List.forall₂_cons.mp hrest
  exact ⟨htable, hlist, by decide +kernel, hfirst hsame, hsecond (by decide)⟩

end Payload

end ArtifactAtlas
