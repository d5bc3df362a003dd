import ArtifactAtlas.Payload.Sanitize
import ArtifactAtlas.Proofs.Ast
import ArtifactAtlas.Proofs.Path.Bytes
import ArtifactAtlas.Proofs.Payload.Assembly
import ArtifactAtlas.SourceMap.Location

/-!
# Sanitizing renames files

The shared directory leads to every path of a payload, so each path but the
directory itself loses it.  What is left still tells paths apart, unless it has names of
bytes that are written as one text.  Lists and keys are renamed alike, so where it does
a source map leads to the same line of the same text as before.
-/

namespace ArtifactAtlas

namespace SourceMap.Entry

theorem location?_map_rename {sourceText? renamedText? : String → Option String}
    {rename : String → String} {sourceList : List String}
    (h : ∀ file ∈ sourceList, renamedText? (rename file) = sourceText? file) (entry : Entry) :
    entry.location? renamedText? (sourceList.map rename) =
      (entry.location? sourceText? sourceList).map fun location =>
        { location with file := rename location.file } := by
  simp only [location?, file?, List.getElem?_map]
  cases entry.start? with
  | none => rfl
  | some offset =>
      cases entry.index? with
      | none => rfl
      | some i =>
          cases hfile : sourceList[i]? with
          | none => simp [hfile]
          | some file =>
              have htext := h file (List.mem_of_getElem? hfile)
              cases hsource : sourceText? file <;> simp [hfile, htext, hsource]

theorem exists_text_of_location? {sourceText? : String → Option String}
    {sourceList : List String} {entry : Entry} {location : Location}
    (h : entry.location? sourceText? sourceList = some location) :
    ∃ text, sourceText? location.file = some text := by
  simp only [location?, Option.bind_eq_bind, Option.bind_eq_some_iff, Option.pure_def,
    Option.some.injEq] at h
  obtain ⟨offset, -, file, -, text, htext, rfl⟩ := h
  exact ⟨text, htext⟩

end SourceMap.Entry

namespace Payload

/-- The paths that a payload refers to, as they are written. -/
def namedPaths (payload : Payload) : List String :=
  ((payload.contracts.flatMap fun contract =>
    contract.sourceList ++ [contract.mainSource]) ++ payload.sources.keys).filter (· ≠ "")

theorem mem_namedPaths_iff {payload : Payload} {path : String} :
    path ∈ payload.namedPaths ↔ path ≠ "" ∧
      ((∃ contract ∈ payload.contracts,
        path ∈ contract.sourceList ∨ path = contract.mainSource) ∨
      path ∈ payload.sources.keys) := by
  rw [namedPaths, List.mem_filter, and_comm]
  simp only [List.mem_append, List.mem_flatMap, List.mem_singleton, decide_eq_true_eq]

theorem mem_namedPaths_of_mem_keys {payload : Payload} {path : String}
    (h : path ∈ payload.sources.keys) (hne : path ≠ "") : path ∈ payload.namedPaths :=
  mem_namedPaths_iff.mpr ⟨hne, .inr h⟩

theorem mem_namedPaths_of_mem_sourceList {payload : Payload} {contract : Contract}
    {path : String} (hcontract : contract ∈ payload.contracts)
    (h : path ∈ contract.sourceList) (hne : path ≠ "") : path ∈ payload.namedPaths :=
  mem_namedPaths_iff.mpr ⟨hne, .inl ⟨contract, hcontract, .inl h⟩⟩

theorem mem_namedPaths_of_mainSource {payload : Payload} {contract : Contract}
    (hcontract : contract ∈ payload.contracts) (hne : contract.mainSource ≠ "") :
    contract.mainSource ∈ payload.namedPaths :=
  mem_namedPaths_iff.mpr ⟨hne, .inl ⟨contract, hcontract, .inr rfl⟩⟩

/-! ## The shared directory -/

variable {payload : Payload} {directory : BytePath} {shared : Path}

theorem ofComponents_components_seen (directory : BytePath) (path : String) :
    Path.ofComponents (seen directory path).components = seen directory path :=
  Path.ofComponents_components_absoluteFrom _ _

theorem seen_eq_of_components_eq {path other : String}
    (h : (seen directory path).components = (seen directory other).components) :
    seen directory path = seen directory other :=
  Path.absoluteFrom_eq_of_components_eq h

theorem mem_referencedPaths {path : String} (h : path ∈ payload.namedPaths) :
    seen directory path ∈ payload.referencedPaths directory := by
  rw [← ofComponents_components_seen]
  apply List.mem_map_of_mem
  rw [OrderedSet.mem_keys_ofList]
  exact List.mem_map_of_mem h

/-- The shared directory is the common one of paths that have all referenced ones among them. -/
theorem exists_common?_of_sharedDirectory? (h : payload.sharedDirectory? directory = some shared) :
    shared.hasName = true ∧ ∃ paths, Path.common? paths = some shared ∧
      ∀ path ∈ payload.referencedPaths directory, path ∈ paths := by
  rw [sharedDirectory?, Option.filter_eq_some_iff] at h
  obtain ⟨hcommon, hname⟩ := h
  refine ⟨hname, ?_⟩
  split at hcommon
  case h_1 path heq => exact ⟨_, hcommon, by simp [heq]⟩
  case h_2 => exact ⟨_, hcommon, fun path hpath => hpath⟩

theorem prefix_of_sharedDirectory? (h : payload.sharedDirectory? directory = some shared)
    {path : String} (hpath : path ∈ payload.namedPaths) :
    shared.components <+: (seen directory path).components := by
  obtain ⟨-, paths, hcommon, hall⟩ := exists_common?_of_sharedDirectory? h
  exact Path.prefix_of_common? hcommon _ (hall _ (mem_referencedPaths hpath))

theorem ofComponents_components_sharedDirectory
    (h : payload.sharedDirectory? directory = some shared) :
    Path.ofComponents shared.components = shared := by
  obtain ⟨-, paths, hcommon, -⟩ := exists_common?_of_sharedDirectory? h
  exact Path.ofComponents_components_of_common? hcommon

theorem components_ne_nil_of_sharedDirectory?
    (h : payload.sharedDirectory? directory = some shared) : shared.components ≠ [] := by
  obtain ⟨hname, -⟩ := exists_common?_of_sharedDirectory? h
  intro hnil
  rw [Path.hasName, hnil] at hname
  cases hname

theorem seen_eq_shared_iff (h : payload.sharedDirectory? directory = some shared)
    {path : String} :
    seen directory path = shared ↔ (seen directory path).components = shared.components := by
  refine ⟨congrArg Path.components, fun heq => ?_⟩
  rw [← ofComponents_components_seen, heq, ofComponents_components_sharedDirectory h]

/-! ## Taking the directory off a path -/

theorem stripped?_ne_empty {path stripped : String}
    (h : stripped? directory shared path = some stripped) : stripped ≠ "" := by
  rw [stripped?, Option.filter_eq_some_iff] at h
  simpa using h.2

theorem stripPath_ne_empty {path : String} (h : path ≠ "") :
    stripPath directory shared path ≠ "" := by
  rw [stripPath]
  cases hstripped : stripped? directory shared path with
  | none => exact h
  | some stripped => exact stripped?_ne_empty hstripped

/-- What stands behind the shared directory on the way along a path. -/
def behind (directory : BytePath) (shared : Path) (path : String) : List Path.Component :=
  (seen directory path).components.drop shared.components.length

theorem append_behind {path : String}
    (hleads : shared.components <+: (seen directory path).components) :
    shared.components ++ behind directory shared path = (seen directory path).components := by
  obtain ⟨rest, hrest⟩ := hleads
  rw [behind, ← hrest, List.drop_left]

theorem inner_of_mem_behind (h : payload.sharedDirectory? directory = some shared)
    {path : String} (hleads : shared.components <+: (seen directory path).components) :
    ∀ c ∈ behind directory shared path, c.Inner :=
  Path.inner_of_append_eq (append_behind hleads) (components_ne_nil_of_sharedDirectory? h)

theorem behind_ne_nil (h : payload.sharedDirectory? directory = some shared) {path : String}
    (hleads : shared.components <+: (seen directory path).components)
    (hne : seen directory path ≠ shared) : behind directory shared path ≠ [] := by
  intro hnil
  have happend := append_behind hleads
  rw [hnil, List.append_nil] at happend
  exact hne ((seen_eq_shared_iff h).mpr happend.symm)

/-- A path that the directory leads to is written as what stands behind the directory. -/
theorem exists_stripped?_eq_some (h : payload.sharedDirectory? directory = some shared)
    {path : String} (hleads : shared.components <+: (seen directory path).components)
    (hne : seen directory path ≠ shared) :
    ∃ stripped, stripped? directory shared path = some stripped ∧
      (Path.mk stripped).components = (behind directory shared path).map (·.written) := by
  have hcomponents := Path.components_ofComponents_of_append (append_behind hleads)
    (components_ne_nil_of_sharedDirectory? h)
  have hinner : ∀ c ∈ (Path.ofComponents (behind directory shared path)).components, c.Inner := by
    rw [hcomponents]
    exact inner_of_mem_behind h hleads
  have hwritten := Path.components_writtenText hinner
  rw [hcomponents] at hwritten
  have htext : (Path.ofComponents (behind directory shared path)).writtenText ≠ "" := by
    intro hempty
    rw [hempty, Path.components_empty] at hwritten
    exact behind_ne_nil h hleads hne (List.map_eq_nil_iff.mp hwritten.symm)
  have hbelow : (seen directory path).below? shared =
      some (Path.ofComponents (behind directory shared path)) :=
    Path.below?_eq_some_iff.mpr ⟨_, append_behind hleads, rfl⟩
  refine ⟨_, ?_, hwritten⟩
  rw [stripped?, hbelow, Option.map_some, Option.filter_some, if_pos (by simpa using htext)]

/-- Nothing is left of the directory itself. -/
theorem stripped?_shared {path : String}
    (h : seen directory path = shared) :
    stripped? directory shared path = none := by
  have hbelow : (seen directory path).below? shared =
      some (Path.ofComponents []) :=
    Path.below?_eq_some_iff.mpr ⟨[], by rw [List.append_nil, h], rfl⟩
  rw [stripped?, hbelow]
  rfl

theorem isSome_stripped?_iff (h : payload.sharedDirectory? directory = some shared)
    {path : String} :
    (stripped? directory shared path).isSome ↔
      shared.components <+: (seen directory path).components ∧
        seen directory path ≠ shared := by
  constructor
  · intro hsome
    refine ⟨?_, fun heq => by rw [stripped?_shared heq] at hsome; cases hsome⟩
    obtain ⟨stripped, hstripped⟩ := Option.isSome_iff_exists.mp hsome
    rw [stripped?, Option.filter_eq_some_iff, Option.map_eq_some_iff] at hstripped
    obtain ⟨⟨rest, hbelow, -⟩, -⟩ := hstripped
    obtain ⟨components, happend, -⟩ := Path.below?_eq_some_iff.mp hbelow
    exact ⟨components, happend⟩
  · rintro ⟨hleads, hne⟩
    obtain ⟨stripped, hstripped, -⟩ := exists_stripped?_eq_some h hleads hne
    rw [hstripped, Option.isSome_some]

theorem sources_strip (payload : Payload) (directory : BytePath) (shared : Path) :
    (payload.strip directory shared).sources =
      .ofList (payload.sources.toList.map fun entry =>
        (stripPath directory shared entry.1,
          stripRecord directory shared (stripPath directory shared entry.1) entry.2)) :=
  rfl

theorem mem_keys_sources_strip {key : String} :
    key ∈ (payload.strip directory shared).sources.keys ↔
      ∃ path ∈ payload.sources.keys, stripPath directory shared path = key := by
  rw [sources_strip]
  exact OrderedMap.mem_keys_ofList_rename payload.sources (stripPath directory shared)
    fun path => stripRecord directory shared (stripPath directory shared path)

theorem exists_of_get?_sources_strip {path : String} {record : SourceRecord}
    (h : (payload.strip directory shared).sources.get? path = some record) :
    ∃ old oldRecord, payload.sources.get? old = some oldRecord ∧
      stripPath directory shared old = path ∧
      stripRecord directory shared path oldRecord = record := by
  rw [sources_strip, OrderedMap.get?_ofList] at h
  have hmem := Entries.mem_of_lookup_eq_some h
  rw [List.mem_reverse, List.mem_map] at hmem
  obtain ⟨⟨old, oldRecord⟩, hold, heq⟩ := hmem
  cases heq
  exact ⟨old, oldRecord, OrderedMap.get?_eq_some_iff.mpr hold, rfl, rfl⟩

/-! ## Telling paths apart -/

/-- The paths of a payload can be told apart, and are not the shared directory itself. -/
structure Separable (payload : Payload) (directory : BytePath) (shared : Path) : Prop where
  apart : ∀ path ∈ payload.namedPaths, ∀ other ∈ payload.namedPaths, path ≠ other →
    seen directory path ≠ seen directory other
  not_shared : ∀ path ∈ payload.namedPaths, seen directory path ≠ shared
  keys_not_empty : "" ∉ payload.sources.keys

/-- What stands behind the shared directory is written alike only where it is the same. -/
def WrittenApart (payload : Payload) (directory : BytePath) (shared : Path) : Prop :=
  ∀ path ∈ payload.namedPaths, ∀ other ∈ payload.namedPaths,
    (behind directory shared path).map (·.written) =
        (behind directory shared other).map (·.written) →
      behind directory shared path = behind directory shared other

instance : Decidable (WrittenApart payload directory shared) :=
  inferInstanceAs (Decidable (∀ path ∈ _, _))

/-- From a directory that is a text there are texts behind every directory. -/
theorem isText_of_mem_behind (hdirectory : directory.IsText) {path : String}
    {c : Path.Component} (h : c ∈ behind directory shared path) : c.IsText := by
  obtain ⟨text, rfl⟩ := hdirectory
  exact Path.isText_of_mem_absoluteFrom (List.mem_of_mem_drop h)

theorem writtenApart_of_isText (payload : Payload) (hdirectory : directory.IsText)
    (shared : Path) : payload.WrittenApart directory shared :=
  fun _ _ _ _ => Path.Component.eq_of_map_written_eq
    (fun _ => isText_of_mem_behind hdirectory) fun _ => isText_of_mem_behind hdirectory

theorem Separable.ne_empty (h : payload.Separable directory shared) {path : String}
    (hkey : path ∈ payload.sources.keys) : path ≠ "" := by
  rintro rfl
  exact h.keys_not_empty hkey

theorem Separable.mem_namedPaths (h : payload.Separable directory shared) {path : String}
    (hkey : path ∈ payload.sources.keys) : path ∈ payload.namedPaths :=
  mem_namedPaths_of_mem_keys hkey (h.ne_empty hkey)

section

variable (hshared : payload.sharedDirectory? directory = some shared)
  (hseparable : payload.Separable directory shared)

include hshared hseparable

theorem Separable.exists_stripped {path : String} (hpath : path ∈ payload.namedPaths) :
    ∃ stripped, stripped? directory shared path = some stripped ∧
      (Path.mk stripped).components = (behind directory shared path).map (·.written) :=
  exists_stripped?_eq_some hshared (prefix_of_sharedDirectory? hshared hpath)
    (hseparable.not_shared path hpath)

variable (happart : payload.WrittenApart directory shared)

include happart

theorem Separable.stripPath_injective {path other : String} (hpath : path ∈ payload.namedPaths)
    (hother : other ∈ payload.namedPaths)
    (h : stripPath directory shared path = stripPath directory shared other) :
    path = other := by
  obtain ⟨stripped, hstripped, hwritten⟩ := hseparable.exists_stripped hshared hpath
  obtain ⟨stripped', hstripped', hwritten'⟩ := hseparable.exists_stripped hshared hother
  rw [stripPath, stripPath, hstripped, hstripped', Option.getD_some, Option.getD_some] at h
  by_contra hne
  -- behind the shared directory stands the same, so the paths were the same before
  apply hseparable.apart path hpath other hother hne
  apply seen_eq_of_components_eq
  have hbehind := happart path hpath other hother (by rw [← hwritten, ← hwritten', h])
  rw [← append_behind (prefix_of_sharedDirectory? hshared hpath),
    ← append_behind (prefix_of_sharedDirectory? hshared hother), hbehind]

theorem Separable.get?_sources_strip {path : String} (hpath : path ∈ payload.namedPaths) :
    (payload.strip directory shared).sources.get? (stripPath directory shared path) =
      (payload.sources.get? path).map
        (stripRecord directory shared (stripPath directory shared path)) := by
  rw [sources_strip]
  refine OrderedMap.get?_ofList_rename payload.sources (stripPath directory shared)
    (fun path => stripRecord directory shared (stripPath directory shared path)) ?_
  intro other hother heq
  exact hseparable.stripPath_injective hshared happart (hseparable.mem_namedPaths hother)
    hpath heq

theorem Separable.sourceText?_strip {path : String} (hpath : path ∈ payload.namedPaths) :
    (payload.strip directory shared).sourceText? (stripPath directory shared path) =
      payload.sourceText? path := by
  rw [sourceText?, hseparable.get?_sources_strip hshared happart hpath, Option.map_map]
  rfl

end

/-- The empty path names no source, neither before nor after. -/
theorem Separable.sourceText?_strip_empty (h : payload.Separable directory shared) :
    (payload.strip directory shared).sourceText? "" = payload.sourceText? "" := by
  have hbefore : payload.sources.get? "" = none :=
    OrderedMap.get?_eq_none_iff.mpr h.keys_not_empty
  have hafter : (payload.strip directory shared).sources.get? "" = none := by
    rw [Option.eq_none_iff_forall_ne_some]
    intro record hrecord
    obtain ⟨path, old, hold, hpath, -⟩ := exists_of_get?_sources_strip hrecord
    refine stripPath_ne_empty ?_ hpath
    rintro rfl
    rw [hbefore] at hold
    cases hold
  rw [sourceText?, sourceText?, hbefore, hafter]

theorem Separable.location?_strip (hshared : payload.sharedDirectory? directory = some shared)
    (h : payload.Separable directory shared) (happart : payload.WrittenApart directory shared)
    {contract : Contract}
    (hcontract : contract ∈ payload.contracts) (entry : SourceMap.Entry) :
    entry.location? (payload.strip directory shared).sourceText?
        (stripContract directory shared contract).sourceList =
      (entry.location? payload.sourceText? contract.sourceList).map fun location =>
        { location with file := stripPath directory shared location.file } := by
  have htexts : ∀ file ∈ contract.sourceList,
      (payload.strip directory shared).sourceText?
        (if file = "" then file else stripPath directory shared file) =
      payload.sourceText? file := by
    intro file hfile
    split
    case isTrue hempty => rw [hempty, h.sourceText?_strip_empty]
    case isFalse hne =>
      exact h.sourceText?_strip hshared happart
        (mem_namedPaths_of_mem_sourceList hcontract hfile hne)
  rw [stripContract, SourceMap.Entry.location?_map_rename htexts entry]
  apply Option.map_congr
  intro location hlocation
  -- the file of a location has a text, so it is not the empty path
  have hne : location.file ≠ "" := by
    obtain ⟨text, htext⟩ := SourceMap.Entry.exists_text_of_location? hlocation
    obtain ⟨record, hrecord, -⟩ := Option.map_eq_some_iff.mp htext
    exact h.ne_empty (OrderedMap.mem_keys_iff.mpr ⟨record, hrecord⟩)
  rw [if_neg hne]

theorem Separable.absolutePath?_stripAst
    (hshared : payload.sharedDirectory? directory = some shared)
    (h : payload.Separable directory shared) {path : String} (hpath : path ∈ payload.namedPaths)
    {ast : Json} (hast : Ast.absolutePath? ast = some path) :
    Ast.absolutePath? (stripAst directory shared ast) =
      some (stripPath directory shared path) := by
  obtain ⟨stripped, hstripped, -⟩ := h.exists_stripped hshared hpath
  obtain ⟨newAst, hnew, hnewPath⟩ := Ast.exists_rewritePath?_eq_some hast hstripped
  rw [stripAst, hnew, Option.getD_some, hnewPath, stripPath, hstripped, Option.getD_some]

theorem sharedDirectory?_of_sanitize (h : (payload.sanitize directory).1 = some shared) :
    payload.sharedDirectory? directory = some shared := by
  rw [sanitize] at h
  split at h
  case h_1 => cases h
  case h_2 heq =>
    cases h
    exact heq

theorem sanitize_of_sharedDirectory? (h : payload.sharedDirectory? directory = some shared) :
    payload.sanitize directory = (some shared, payload.strip directory shared) := by
  rw [sanitize, h]

/-- A record under its new path: it has that path, and a tree whose root had the path that
the record was found under has the new one. -/
structure Follows (record : SourceRecord) (oldPath : String) (renamed : SourceRecord)
    (newPath : String) : Prop where
  path : renamed.path = newPath
  ast : Ast.absolutePath? record.ast = some oldPath →
    Ast.absolutePath? renamed.ast = some newPath
  legacyAst : record.legacyAst.bind Ast.absolutePath? = some oldPath →
    renamed.legacyAst.bind Ast.absolutePath? = some newPath

theorem Separable.follows_stripRecord
    (hshared : payload.sharedDirectory? directory = some shared)
    (h : payload.Separable directory shared) {path : String} {record : SourceRecord}
    (hrecord : payload.sources.get? path = some record) :
    Follows record path
      (stripRecord directory shared (stripPath directory shared path) record)
      (stripPath directory shared path) := by
  have hpath := h.mem_namedPaths (OrderedMap.mem_keys_iff.mpr ⟨record, hrecord⟩)
  refine ⟨rfl, h.absolutePath?_stripAst hshared hpath, fun hlegacy => ?_⟩
  obtain ⟨legacy, hsome, hlegacyPath⟩ := Option.bind_eq_some_iff.mp hlegacy
  rw [stripRecord, hsome, Option.map_some, Option.bind_some]
  exact h.absolutePath?_stripAst hshared hpath hlegacyPath

/--
Sanitizing only renames, as long as the paths of a payload can be told apart and what
stands behind the shared directory is still told apart as texts, as it always is from a
directory that is a text.  Then no two paths become one, and every entry of a source map
leads to the same line with the same text as before, in the file under its new name.  A
record goes by the path that it is found under in any case, and the root of its tree goes
along with it.
-/
theorem sanitize_only_renames_if_written_apart {payload : Payload} {directory : BytePath}
    {shared : Path} (hsanitize : (payload.sanitize directory).1 = some shared)
    (h : payload.Separable directory shared) :
    (directory.IsText → payload.WrittenApart directory shared) ∧
    (payload.WrittenApart directory shared →
      (∀ path ∈ payload.namedPaths, ∀ other ∈ payload.namedPaths,
        stripPath directory shared path = stripPath directory shared other → path = other) ∧
      List.Forall₂ (fun contract renamed =>
        renamed = { contract with
          sourceList := renamed.sourceList
          mainSource := stripPath directory shared contract.mainSource } ∧
        ∀ entry : SourceMap.Entry,
          entry.location? (payload.sanitize directory).2.sourceText? renamed.sourceList =
            (entry.location? payload.sourceText? contract.sourceList).map fun location =>
              { location with file := stripPath directory shared location.file })
        payload.contracts (payload.sanitize directory).2.contracts ∧
      ∀ path record, payload.sources.get? path = some record → ∃ renamed,
        (payload.sanitize directory).2.sources.get? (stripPath directory shared path) =
          some renamed ∧
        Follows record path renamed (stripPath directory shared path)) ∧
    ∀ newPath renamed, (payload.sanitize directory).2.sources.get? newPath = some renamed →
      ∃ path record, payload.sources.get? path = some record ∧
        stripPath directory shared path = newPath ∧ Follows record path renamed newPath := by
  have hshared := sharedDirectory?_of_sanitize hsanitize
  rw [sanitize_of_sharedDirectory? hshared]
  refine ⟨fun hdirectory => writtenApart_of_isText payload hdirectory shared,
    fun happart => ⟨?_, ?_, ?_⟩, ?_⟩
  · exact fun path hpath other hother => h.stripPath_injective hshared happart hpath hother
  · rw [strip, List.forall₂_map_right_iff, List.forall₂_same]
    exact fun contract hcontract => ⟨rfl, h.location?_strip hshared happart hcontract⟩
  · intro path record hrecord
    have hpath := h.mem_namedPaths (OrderedMap.mem_keys_iff.mpr ⟨record, hrecord⟩)
    refine ⟨_, ?_, h.follows_stripRecord hshared hrecord⟩
    rw [h.get?_sources_strip hshared happart hpath, hrecord, Option.map_some]
  · intro newPath renamed hrenamed
    obtain ⟨path, record, hrecord, rfl, rfl⟩ := exists_of_get?_sources_strip hrenamed
    exact ⟨path, record, hrecord, rfl, h.follows_stripRecord hshared hrecord⟩

/-- A directory whose last name is a byte that is no text. -/
def strayDirectory : BytePath :=
  ⟨[0x2F, 0x70, 0x2F, 0xFF]⟩

/-- Two sources of a project, one as seen from its directory and one with dots on the way. -/
def mixedSpellings : Payload where
  contracts := [⟨"A", "0x60", "0x60", "0:13:0", "0:13:1", ["A", "/p/l/../B", ""], "A"⟩]
  sources := .ofList [
    ("A", ⟨"A", "contract A \x7b\x7d", .object [("absolutePath", .string "A")],
      none, some 0, none⟩),
    ("/p/l/../B", ⟨"/p/l/../B", "contract B \x7b\x7d", .null,
      some (.object [("attributes", .object [("absolutePath", .string "/p/l/../B")])]),
      some 1, none⟩)]
  solcVersion := none
  skipped := []
  failed := []

/-- Names that are no texts do no harm where no other names are written like them. -/
theorem mixedSpellings_only_renamed :
    (mixedSpellings.sanitize strayDirectory).1 = some ⟨"/p"⟩ ∧
    mixedSpellings.Separable strayDirectory ⟨"/p"⟩ ∧
    mixedSpellings.WrittenApart strayDirectory ⟨"/p"⟩ ∧
    (mixedSpellings.sanitize strayDirectory).2.sources.keys = ["B", "\uFFFD/A"] ∧
    ∀ path record, mixedSpellings.sources.get? path = some record → ∃ renamed,
      (mixedSpellings.sanitize strayDirectory).2.sources.get?
          (stripPath strayDirectory ⟨"/p"⟩ path) = some renamed ∧
        Follows record path renamed (stripPath strayDirectory ⟨"/p"⟩ path) := by
  have hshared : (mixedSpellings.sanitize strayDirectory).1 = some ⟨"/p"⟩ := by decide +kernel
  have hseparable : mixedSpellings.Separable strayDirectory ⟨"/p"⟩ :=
    { apart := by decide +kernel
      not_shared := by decide +kernel
      keys_not_empty := by decide +kernel }
  have happart : mixedSpellings.WrittenApart strayDirectory ⟨"/p"⟩ := by decide +kernel
  obtain ⟨-, hrenames, -⟩ := sanitize_only_renames_if_written_apart hshared hseparable
  obtain ⟨-, -, hrecords⟩ := hrenames happart
  exact ⟨hshared, hseparable, happart, by decide +kernel, hrecords⟩

/-- A source in the stray directory, one in a directory that is written alike, and one
above both. -/
def homonyms : Payload where
  contracts := [⟨"A", "0x60", "0x60", "0:13:0", "0:13:1", ["A", "/p/\uFFFD/A", "/p/B"], "A"⟩]
  sources := .ofList [
    ("A", ⟨"A", "contract A \x7b\x7d", .null, none, none, none⟩),
    ("/p/\uFFFD/A", ⟨"/p/\uFFFD/A", "contract Old \x7b\x7d", .null, none, none, none⟩),
    ("/p/B", ⟨"/p/B", "contract B \x7b\x7d", .null, none, none, none⟩)]
  solcVersion := none
  skipped := []
  failed := []

/-- Two of the sources get one path, and an entry for the one shows the other. -/
theorem homonyms_are_confused :
    strayDirectory.toPath.isAbsolute = true ∧
    (homonyms.sanitize strayDirectory).1 = some ⟨"/p"⟩ ∧
    homonyms.Separable strayDirectory ⟨"/p"⟩ ∧
    (homonyms.sanitize strayDirectory).2.contracts.map (·.sourceList) =
      [["\uFFFD/A", "\uFFFD/A", "B"]] ∧
    (homonyms.sanitize strayDirectory).2.sources.keys = ["B", "\uFFFD/A"] ∧
    SourceMap.Entry.location? homonyms.sourceText?
        ["A", "/p/\uFFFD/A", "/p/B"] ⟨0, 13, 1, .regular, 0⟩ =
      some ⟨"/p/\uFFFD/A", 1, "contract Old \x7b\x7d"⟩ ∧
    SourceMap.Entry.location? (homonyms.sanitize strayDirectory).2.sourceText?
        ["\uFFFD/A", "\uFFFD/A", "B"] ⟨0, 13, 1, .regular, 0⟩ =
      some ⟨"\uFFFD/A", 1, "contract A \x7b\x7d"⟩ := by
  have hshared : homonyms.sharedDirectory? strayDirectory = some ⟨"/p"⟩ := by decide +kernel
  have hseparable : homonyms.Separable strayDirectory ⟨"/p"⟩ :=
    { apart := by decide +kernel
      not_shared := by decide +kernel
      keys_not_empty := by decide +kernel }
  rw [sanitize_of_sharedDirectory? hshared]
  exact ⟨by decide, rfl, hseparable, by decide +kernel⟩

end Payload

end ArtifactAtlas
