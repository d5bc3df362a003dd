import ArtifactAtlas.Proofs.Payload.KeptSources
import Mathlib.Data.Finset.Max

/-!
# Sanitizing twice

What is left of paths below the directory that they share are names, and not all of them
begin with the same one.  Seen again from an absolute directory without dots they share
that directory and nothing else, so that is what is taken off, and every path stays as it
was left the first time.  Names that are no texts can differ and be written alike: where
everything that is written begins with one name, the second run takes that off as well.
-/

namespace ArtifactAtlas.Payload

variable {payload : Payload} {directory : BytePath} {shared : Path}

/-! ## What is left of a path -/

/-- A plain text that is written for what stands behind the shared directory. -/
structure Tail (directory : BytePath) (shared : Path) (path tail : String) : Prop where
  leads : shared.components <+: (seen directory path).components
  written : (Path.mk tail).components = (behind directory shared path).map (·.written)
  plain : Path.ofComponents (Path.mk tail).components = ⟨tail⟩

theorem tail_stripPath (h : payload.sharedDirectory? directory = some shared) {path : String}
    (hpath : path ∈ payload.namedPaths) (hne : seen directory path ≠ shared) :
    Tail directory shared path (stripPath directory shared path) := by
  have hleads := prefix_of_sharedDirectory? h hpath
  obtain ⟨stripped, hstripped, hwritten⟩ := exists_stripped?_eq_some h hleads hne
  rw [stripPath, hstripped, Option.getD_some]
  refine ⟨hleads, hwritten, ?_⟩
  rw [stripped?, Option.filter_eq_some_iff, Option.map_eq_some_iff] at hstripped
  obtain ⟨⟨rest, hbelow, rfl⟩, -⟩ := hstripped
  obtain ⟨components, happend, rfl⟩ := Path.below?_eq_some_iff.mp hbelow
  have hrest := Path.components_ofComponents_of_append happend
    (components_ne_nil_of_sharedDirectory? h)
  have hsame : components = behind directory shared path :=
    List.append_cancel_left (happend.trans (append_behind hleads).symm)
  rw [hwritten, Path.writtenText, hrest, hsame]

theorem Tail.eq_of_written_eq {base : Path} {path other tail otherTail : String}
    (h : Tail directory shared path tail) (hother : Tail directory base other otherTail)
    (hsame : (behind directory shared path).map (·.written) =
      (behind directory base other).map (·.written)) :
    tail = otherTail := by
  have hpath : Path.mk tail = Path.mk otherTail := by
    rw [← h.plain, ← hother.plain, h.written, hother.written, hsame]
  exact congrArg Path.text hpath

section

variable (habsolute : directory.toPath.isAbsolute = true)
  (hclimbs : .parent ∉ directory.toPath.components)

include habsolute hclimbs

theorem components_seen_stripPath (h : payload.sharedDirectory? directory = some shared)
    {path : String} (hpath : path ∈ payload.namedPaths) (hne : seen directory path ≠ shared) :
    (seen directory (stripPath directory shared path)).components =
      directory.toPath.components ++
        ((behind directory shared path).map (·.written)).map (·.encoded) := by
  have htail := tail_stripPath h hpath hne
  exact components_absoluteFrom_of_written h htail.leads htail.written
    (Path.trail_of_isAbsolute habsolute hclimbs)

theorem map_written_eq_of_seen_stripPath_eq
    (h : payload.sharedDirectory? directory = some shared) {path other : String}
    (hpath : path ∈ payload.namedPaths) (hne : seen directory path ≠ shared)
    (hother : other ∈ payload.namedPaths) (hneOther : seen directory other ≠ shared)
    (hsame : seen directory (stripPath directory shared path) =
      seen directory (stripPath directory shared other)) :
    (behind directory shared path).map (·.written) =
      (behind directory shared other).map (·.written) := by
  have hcomponents := congrArg Path.components hsame
  rw [components_seen_stripPath habsolute hclimbs h hpath hne,
    components_seen_stripPath habsolute hclimbs h hother hneOther,
    List.append_cancel_left_eq] at hcomponents
  exact List.map_injective_iff.mpr Path.Component.encoded_injective hcomponents

end

/-! ## The paths of the second run -/

theorem stripPath_mem_namedPaths_strip {path : String} (h : path ∈ payload.namedPaths) :
    stripPath directory shared path ∈ (payload.strip directory shared).namedPaths := by
  obtain ⟨hne, hnamed⟩ := mem_namedPaths_iff.mp h
  refine mem_namedPaths_iff.mpr ⟨stripPath_ne_empty hne, ?_⟩
  rcases hnamed with ⟨contract, hcontract, hlisted | rfl⟩ | hkey
  · refine .inl ⟨_, List.mem_map_of_mem hcontract, .inl ?_⟩
    exact List.mem_map.mpr ⟨path, hlisted, if_neg hne⟩
  · exact .inl ⟨_, List.mem_map_of_mem hcontract, .inr rfl⟩
  · exact .inr (mem_keys_sources_strip.mpr ⟨path, hkey, rfl⟩)

/-- Where neither a main source nor a key is empty, no path comes out of nothing. -/
theorem exists_of_mem_namedPaths_strip
    (hmain : ∀ contract ∈ payload.contracts, contract.mainSource ≠ "")
    (hkeys : "" ∉ payload.sources.keys) {newPath : String}
    (h : newPath ∈ (payload.strip directory shared).namedPaths) :
    ∃ path ∈ payload.namedPaths, stripPath directory shared path = newPath := by
  obtain ⟨hne, hnamed⟩ := mem_namedPaths_iff.mp h
  rcases hnamed with ⟨renamed, hrenamed, hnamed⟩ | hkey
  · obtain ⟨contract, hcontract, rfl⟩ := List.mem_map.mp hrenamed
    rcases hnamed with hlisted | rfl
    · obtain ⟨path, hpath, rfl⟩ := List.mem_map.mp hlisted
      by_cases hempty : path = ""
      · rw [if_pos hempty] at hne
        contradiction
      · rw [if_neg hempty]
        exact ⟨path, mem_namedPaths_of_mem_sourceList hcontract hpath hempty, rfl⟩
    · exact ⟨_, mem_namedPaths_of_mainSource hcontract (hmain contract hcontract), rfl⟩
  · obtain ⟨path, hpath, rfl⟩ := mem_keys_sources_strip.mp hkey
    have hempty : path ≠ "" := fun hempty => hkeys (hempty ▸ hpath)
    exact ⟨path, mem_namedPaths_of_mem_keys hpath hempty, rfl⟩

/-! ## Runs that change nothing -/

/-- Where paths come from paths and only get shorter, the longest that was made shorter
would come from one that is longer still. -/
theorem eq_self_of_onto {paths : List String} {rename : String → String}
    (size : String → Nat) (honto : ∀ path ∈ paths, ∃ old ∈ paths, rename old = path)
    (hless : ∀ path ∈ paths, rename path ≠ path → size (rename path) < size path) :
    ∀ path ∈ paths, rename path = path := by
  by_contra! hmoved
  obtain ⟨moved, hmem, hne⟩ := hmoved
  have hnonempty : (paths.toFinset.filter fun path => rename path ≠ path).Nonempty :=
    ⟨moved, by simp [hmem, hne]⟩
  obtain ⟨longest, hlongest, hlarge⟩ := Finset.exists_max_image _ size hnonempty
  rw [Finset.mem_filter, List.mem_toFinset] at hlongest
  obtain ⟨old, hold, heq⟩ := honto longest hlongest.1
  have holdMoved : rename old ≠ old := by
    intro hsame
    rw [← heq, hsame] at hlongest
    exact hlongest.2 hsame
  have hle := hlarge old (by simp [hold, holdMoved])
  have hlt := hless old hold holdMoved
  rw [heq] at hlt
  omega

theorem stripPath_eq_self_of_unchanged
    (hcontracts : (payload.strip directory shared).contracts = payload.contracts)
    (hkeys : (payload.strip directory shared).sources.keys = payload.sources.keys)
    (hless : ∀ path ∈ payload.sources.keys, stripPath directory shared path ≠ path →
      (Path.mk (stripPath directory shared path)).components.length <
        (Path.mk path).components.length) :
    ∀ path ∈ payload.namedPaths, stripPath directory shared path = path := by
  have hsame : ∀ contract ∈ payload.contracts,
      stripContract directory shared contract = contract :=
    List.map_inj_left.mp (hcontracts.trans (List.map_id _).symm)
  intro path hpath
  obtain ⟨hne, ⟨contract, hcontract, hlisted | rfl⟩ | hkey⟩ := mem_namedPaths_iff.mp hpath
  · have hlist : contract.sourceList.map
        (fun path => if path = "" then path else stripPath directory shared path) =
        contract.sourceList.map id :=
      (congrArg Contract.sourceList (hsame contract hcontract)).trans (List.map_id _).symm
    simpa [hne] using List.map_inj_left.mp hlist path hlisted
  · exact congrArg Contract.mainSource (hsame contract hcontract)
  · refine eq_self_of_onto (fun key => (Path.mk key).components.length)
      (fun key hkey => ?_) hless path hkey
    rw [← hkeys] at hkey
    exact mem_keys_sources_strip.mp hkey

/-! ## The directory of the second run -/

/-- What is written for what stands behind the shared directory does not always begin
with the same name, unless it is always the same. -/
def BeginApart (payload : Payload) (directory : BytePath) (shared : Path) : Prop :=
  (∀ path ∈ payload.namedPaths, ∀ other ∈ payload.namedPaths,
    (behind directory shared path).head?.map (·.written) =
      (behind directory shared other).head?.map (·.written)) →
  ∀ path ∈ payload.namedPaths, ∀ other ∈ payload.namedPaths,
    (behind directory shared path).map (·.written) =
      (behind directory shared other).map (·.written)

instance : Decidable (BeginApart payload directory shared) :=
  inferInstanceAs (Decidable (_ → _))

/-- Paths that are not all one have a shared directory that goes on along every named way
that leads to all of them. -/
theorem exists_sharedDirectory?_of_leads {way : List Path.Component}
    (hname : way.any (·.isName) = true)
    (hmany : ¬ ∀ path ∈ payload.seenPaths directory, ∀ other ∈ payload.seenPaths directory,
      path = other)
    (hleads : ∀ path ∈ payload.namedPaths, way <+: (seen directory path).components) :
    ∃ shared, payload.sharedDirectory? directory = some shared ∧
      way <+: shared.components := by
  obtain ⟨path, hpath⟩ : ∃ path, path ∈ payload.namedPaths := by
    by_contra! hnone
    apply hmany
    rw [seenPaths, List.eq_nil_iff_forall_not_mem.mpr hnone]
    exact fun path hpath => absurd hpath List.not_mem_nil
  have hway : (Path.ofComponents way).components = way :=
    Path.components_ofComponents ((Path.wellFormed_components _).of_front (hleads path hpath))
  have hall : ∀ path ∈ payload.comparedPaths directory,
      (Path.ofComponents way).LeadsTo path := by
    rw [comparedPaths, if_neg hmany]
    intro seen hseen
    obtain ⟨path, hpath, rfl⟩ := List.mem_map.mp hseen
    rw [Path.LeadsTo, hway]
    exact hleads path hpath
  cases hshared : payload.sharedDirectory? directory with
  | none =>
      exfalso
      rcases sharedDirectory?_eq_none_iff.mp hshared with hnil | hunnamed
      · exact List.ne_nil_of_mem hpath hnil
      · have hwayUnnamed := hunnamed _ hall
        rw [Path.hasName, hway, hname] at hwayUnnamed
        cases hwayUnnamed
  | some shared =>
      have hlongest := (isLongestShared_of_sharedDirectory? hshared).longest _ hall
      rw [Path.LeadsTo, hway] at hlongest
      exact ⟨shared, rfl, hlongest⟩

/-- A way that goes on behind the shared directory leads to all paths only if they are
all one. -/
theorem seenPaths_eq_of_longer_leads (h : payload.sharedDirectory? directory = some shared)
    {c : Path.Component}
    (hleads : ∀ path ∈ payload.namedPaths,
      shared.components ++ [c] <+: (seen directory path).components) :
    ∀ path ∈ payload.seenPaths directory, ∀ other ∈ payload.seenPaths directory,
      path = other := by
  by_contra hmany
  obtain ⟨hname, -⟩ := exists_common?_of_sharedDirectory? h
  have hlonger : (shared.components ++ [c]).any (·.isName) = true := by
    rw [List.any_append, ← Path.hasName, hname, Bool.true_or]
  obtain ⟨longest, hlongest, hback⟩ := exists_sharedDirectory?_of_leads hlonger hmany hleads
  obtain rfl : shared = longest := Option.some.inj (h.symm.trans hlongest)
  have hlength := hback.length_le
  rw [List.length_append, List.length_singleton] at hlength
  omega

/-- Names of texts are told apart as they are written, so all paths of them would go on
along one name if what is written began with one. -/
theorem beginApart_of_isText (hdirectory : directory.IsText)
    (h : payload.sharedDirectory? directory = some shared) :
    payload.BeginApart directory shared := by
  intro hheads path hpath other hother
  cases hbehind : behind directory shared path with
  | nil =>
      have hhead := hheads path hpath other hother
      rw [hbehind, List.head?_nil, Option.map_none, eq_comm, Option.map_eq_none_iff,
        List.head?_eq_none_iff] at hhead
      rw [hhead]
  | cons c rest =>
      have hc : c ∈ behind directory shared path := hbehind ▸ List.mem_cons_self
      have hleads : ∀ path ∈ payload.namedPaths,
          shared.components ++ [c] <+: (seen directory path).components := by
        intro third hthird
        have hhead := hheads third hthird path hpath
        rw [hbehind, List.head?_cons, Option.map_some, Option.map_eq_some_iff] at hhead
        obtain ⟨d, hd, hwritten⟩ := hhead
        obtain ⟨back, hback⟩ := List.head?_eq_some_iff.mp hd
        have hsame := Path.Component.IsText.eq_of_written_eq
          (isText_of_mem_behind hdirectory (List.mem_of_mem_head? hd))
          (isText_of_mem_behind hdirectory hc) hwritten
        rw [← append_behind (prefix_of_sharedDirectory? h hthird), hback, hsame,
          List.prefix_append_right_inj]
        exact List.prefix_append [c] back
      have hseen := seenPaths_eq_of_longer_leads h hleads _ (List.mem_map_of_mem hpath) _
        (List.mem_map_of_mem hother)
      rw [← hbehind, behind, behind, hseen]

section

variable (hmain : ∀ contract ∈ payload.contracts, contract.mainSource ≠ "")
  (hkeys : "" ∉ payload.sources.keys)
  (h : payload.sharedDirectory? directory = some shared)
  (hne : ∀ path ∈ payload.namedPaths, seen directory path ≠ shared)

include hmain hkeys h hne

/-- Paths that are all written alike are all one. -/
theorem directory_mem_comparedPaths_strip
    (halike : ∀ path ∈ payload.namedPaths, ∀ other ∈ payload.namedPaths,
      (behind directory shared path).map (·.written) =
        (behind directory shared other).map (·.written)) :
    directory.toPath ∈ (payload.strip directory shared).comparedPaths directory := by
  rw [comparedPaths, if_pos]
  · exact List.mem_cons_self
  intro seen hseen otherSeen hotherSeen
  obtain ⟨newPath, hnew, rfl⟩ := List.mem_map.mp hseen
  obtain ⟨newOther, hnewOther, rfl⟩ := List.mem_map.mp hotherSeen
  obtain ⟨path, hpath, rfl⟩ := exists_of_mem_namedPaths_strip hmain hkeys hnew
  obtain ⟨other, hother, rfl⟩ := exists_of_mem_namedPaths_strip hmain hkeys hnewOther
  rw [(tail_stripPath h hpath (hne path hpath)).eq_of_written_eq
    (tail_stripPath h hother (hne other hother)) (halike path hpath other hother)]

variable (habsolute : directory.toPath.isAbsolute = true)
  (hclimbs : .parent ∉ directory.toPath.components)

include habsolute hclimbs

/-- All that is left of the paths is seen from the directory below it. -/
theorem leadsTo_comparedPaths_strip :
    ∀ path ∈ (payload.strip directory shared).comparedPaths directory,
      directory.toPath.LeadsTo path := by
  have hseen : ∀ path ∈ (payload.strip directory shared).seenPaths directory,
      directory.toPath.LeadsTo path := by
    intro seen hseen
    obtain ⟨newPath, hnew, rfl⟩ := List.mem_map.mp hseen
    obtain ⟨path, hpath, rfl⟩ := exists_of_mem_namedPaths_strip hmain hkeys hnew
    exact ⟨_, (components_seen_stripPath habsolute hclimbs h hpath (hne path hpath)).symm⟩
  rw [comparedPaths]
  split
  case isTrue => exact List.forall_mem_cons.mpr ⟨List.prefix_rfl, hseen⟩
  case isFalse => exact hseen

/-- Names that all begin alike but go on differently are below a longer shared directory. -/
theorem exists_longer_sharedDirectory?_strip
    (hheads : ∀ path ∈ payload.namedPaths, ∀ other ∈ payload.namedPaths,
      (behind directory shared path).head?.map (·.written) =
        (behind directory shared other).head?.map (·.written))
    {path other : String} (hpath : path ∈ payload.namedPaths)
    (hother : other ∈ payload.namedPaths)
    (happart : (behind directory shared path).map (·.written) ≠
      (behind directory shared other).map (·.written)) :
    ∃ again, (payload.strip directory shared).sharedDirectory? directory = some again ∧
      directory.toPath.components.length < again.components.length := by
  obtain ⟨c, rest, hbehind⟩ := List.exists_cons_of_ne_nil
    (behind_ne_nil h (prefix_of_sharedDirectory? h hpath) (hne path hpath))
  have hleads : ∀ new ∈ (payload.strip directory shared).namedPaths,
      directory.toPath.components ++ [c.written.encoded] <+: (seen directory new).components := by
    intro new hnew
    obtain ⟨old, hold, rfl⟩ := exists_of_mem_namedPaths_strip hmain hkeys hnew
    have hhead := hheads old hold path hpath
    rw [hbehind, List.head?_cons, Option.map_some, Option.map_eq_some_iff] at hhead
    obtain ⟨d, hd, hwritten⟩ := hhead
    obtain ⟨back, hback⟩ := List.head?_eq_some_iff.mp hd
    rw [components_seen_stripPath habsolute hclimbs h hold (hne old hold), hback,
      List.map_cons, List.map_cons, hwritten, List.prefix_append_right_inj]
    exact List.prefix_append [c.written.encoded] _
  have hmany : ¬ ∀ path ∈ (payload.strip directory shared).seenPaths directory,
      ∀ other ∈ (payload.strip directory shared).seenPaths directory, path = other := by
    intro hone
    exact happart (map_written_eq_of_seen_stripPath_eq habsolute hclimbs h
      hpath (hne path hpath) hother (hne other hother) (hone _
        (List.mem_map_of_mem (stripPath_mem_namedPaths_strip hpath)) _
        (List.mem_map_of_mem (stripPath_mem_namedPaths_strip hother))))
  have hname : (directory.toPath.components ++ [c.written.encoded]).any (·.isName) = true := by
    have hc : c.isName = true :=
      isName_of_mem_behind h (prefix_of_sharedDirectory? h hpath) c
        (hbehind ▸ List.mem_cons_self)
    simp [Path.Component.isName_encoded, Path.Component.isName_written, hc]
  obtain ⟨again, hagain, hlonger⟩ := exists_sharedDirectory?_of_leads hname hmany hleads
  have hlength := hlonger.length_le
  rw [List.length_append, List.length_singleton] at hlength
  exact ⟨again, hagain, hlength⟩

/-- What the second run finds below a longer directory gets shorter. -/
theorem length_stripPath_lt {again : Path}
    (hagain : (payload.strip directory shared).sharedDirectory? directory = some again)
    (hlonger : directory.toPath.components.length < again.components.length) {path : String}
    (hpath : path ∈ (payload.strip directory shared).namedPaths)
    (hnew : seen directory path ≠ again) :
    (Path.mk (stripPath directory again path)).components.length <
      (Path.mk path).components.length := by
  have hleads := prefix_of_sharedDirectory? hagain hpath
  have hwritten := (tail_stripPath hagain hpath hnew).written
  have hbound := hleads.length_le
  obtain ⟨old, hold, rfl⟩ := exists_of_mem_namedPaths_strip hmain hkeys hpath
  rw [hwritten, (tail_stripPath h hold (hne old hold)).written, List.length_map,
    List.length_map, behind, List.length_drop]
  rw [components_seen_stripPath habsolute hclimbs h hold (hne old hold)] at hbound ⊢
  simp only [List.length_append, List.length_map] at hbound ⊢
  omega

/-- A second run that changes nothing below a longer directory has found only that. -/
theorem seen_eq_of_unchanged {again : Path}
    (hagain : (payload.strip directory shared).sharedDirectory? directory = some again)
    (hlonger : directory.toPath.components.length < again.components.length)
    (hcontracts : ((payload.strip directory shared).strip directory again).contracts =
      (payload.strip directory shared).contracts)
    (hsources : ((payload.strip directory shared).strip directory again).sources.keys =
      (payload.strip directory shared).sources.keys) :
    ∀ new ∈ (payload.strip directory shared).namedPaths, seen directory new = again := by
  have hkept : ∀ new ∈ (payload.strip directory shared).namedPaths,
      stripPath directory again new = new := by
    refine stripPath_eq_self_of_unchanged hcontracts hsources fun key hkey hmoved => ?_
    obtain ⟨old, hold, rfl⟩ := mem_keys_sources_strip.mp hkey
    have hnamed := mem_namedPaths_of_mem_keys hold fun hempty => hkeys (hempty ▸ hold)
    refine length_stripPath_lt hmain hkeys h hne habsolute hclimbs hagain hlonger
      (stripPath_mem_namedPaths_strip hnamed) fun hsame => hmoved ?_
    rw [stripPath, stripped?_shared hsame, Option.getD_none]
  intro new hnew
  by_contra hapart
  have hlt := length_stripPath_lt hmain hkeys h hne habsolute hclimbs hagain hlonger hnew hapart
  rw [hkept new hnew] at hlt
  exact Nat.lt_irrefl _ hlt

/-- A second run that changes nothing has found no names that all begin alike. -/
theorem beginApart_of_unchanged
    (hcontracts : ((payload.strip directory shared).sanitize directory).2.contracts =
      (payload.strip directory shared).contracts)
    (hsources : ((payload.strip directory shared).sanitize directory).2.sources.keys =
      (payload.strip directory shared).sources.keys) :
    payload.BeginApart directory shared := by
  intro hheads path hpath other hother
  by_contra happart
  obtain ⟨again, hagain, hlonger⟩ := exists_longer_sharedDirectory?_strip hmain hkeys h hne
    habsolute hclimbs hheads hpath hother happart
  rw [sanitize_of_sharedDirectory? hagain] at hcontracts hsources
  have hseen := seen_eq_of_unchanged hmain hkeys h hne habsolute hclimbs hagain hlonger
    hcontracts hsources
  have hpathSeen := hseen _ (stripPath_mem_namedPaths_strip hpath)
  have hotherSeen := hseen _ (stripPath_mem_namedPaths_strip hother)
  exact happart (map_written_eq_of_seen_stripPath_eq habsolute hclimbs h hpath (hne path hpath)
    hother (hne other hother) (hpathSeen.trans hotherSeen.symm))

variable (hbegin : payload.BeginApart directory shared)

include hbegin

/-- What the second run takes off is the directory that it sees the paths from. -/
theorem components_sharedDirectory?_strip {again : Path}
    (hagain : (payload.strip directory shared).sharedDirectory? directory = some again) :
    again.components = directory.toPath.components := by
  have hlongest := isLongestShared_of_sharedDirectory? hagain
  obtain ⟨extra, hextra⟩ := hlongest.longest directory.toPath
    (leadsTo_comparedPaths_strip hmain hkeys h hne habsolute hclimbs)
  cases extra with
  | nil => rw [← hextra, List.append_nil]
  | cons c rest =>
      exfalso
      -- all tails would begin with one component, which then was shared in the first run
      have hwritten : ∀ path ∈ payload.namedPaths,
          (behind directory shared path).head?.map (·.written) = some c.written := by
        intro path hpath
        obtain ⟨back, hback⟩ := hlongest.leads _
          (mem_comparedPaths_of_mem_namedPaths (stripPath_mem_namedPaths_strip hpath))
        rw [components_seen_stripPath habsolute hclimbs h hpath (hne path hpath), ← hextra,
          List.append_assoc, List.append_cancel_left_eq] at hback
        have hhead := congrArg (fun components => components.head?.map (·.written)) hback
        simpa [Function.comp_def, Path.Component.written_encoded] using hhead.symm
      have hback := hlongest.leads directory.toPath
        (directory_mem_comparedPaths_strip hmain hkeys h hne
          (hbegin fun path hpath other hother =>
            (hwritten path hpath).trans (hwritten other hother).symm))
      rw [Path.LeadsTo, ← hextra] at hback
      have hlength := hback.length_le
      rw [List.length_append, List.length_cons] at hlength
      omega

theorem stripPath_stripPath {again : Path}
    (hagain : (payload.strip directory shared).sharedDirectory? directory = some again)
    {path : String} (hpath : path ∈ payload.namedPaths) :
    stripPath directory again (stripPath directory shared path) =
      stripPath directory shared path := by
  have htail := tail_stripPath h hpath (hne path hpath)
  have hseen := components_seen_stripPath habsolute hclimbs h hpath (hne path hpath)
  have hsame := components_sharedDirectory?_strip hmain hkeys h hne habsolute hclimbs hbegin hagain
  have hbehind : behind directory again (stripPath directory shared path) =
      ((behind directory shared path).map (·.written)).map (·.encoded) := by
    rw [behind, hseen, hsame, List.drop_left]
  have hnew : seen directory (stripPath directory shared path) ≠ again := by
    intro heq
    rw [heq, hsame, List.self_eq_append_right, List.map_eq_nil_iff, List.map_eq_nil_iff] at hseen
    exact behind_ne_nil h htail.leads (hne path hpath) hseen
  refine (tail_stripPath hagain (stripPath_mem_namedPaths_strip hpath) hnew).eq_of_written_eq
    htail ?_
  rw [hbehind, List.map_map]
  exact List.map_id'' Path.Component.written_encoded _

end

/-! ## Running twice -/

/-- A second run leaves the lists, the main sources and the keys that the first one left. -/
def StaysSanitized (payload : Payload) (directory : BytePath) : Prop :=
  ((payload.sanitize directory).2.sanitize directory).2.contracts =
      (payload.sanitize directory).2.contracts ∧
    ((payload.sanitize directory).2.sanitize directory).2.sources.keys =
      (payload.sanitize directory).2.sources.keys

section

variable (habsolute : directory.toPath.isAbsolute = true)
  (hclimbs : .parent ∉ directory.toPath.components)
  (hmain : ∀ contract ∈ payload.contracts, contract.mainSource ≠ "")
  (hkeys : "" ∉ payload.sources.keys)
  (hne : ∀ shared, (payload.sanitize directory).1 = some shared →
    ∀ path ∈ payload.namedPaths, seen directory path ≠ shared)
  (hbegin : ∀ shared, (payload.sanitize directory).1 = some shared →
    payload.BeginApart directory shared)

include habsolute hclimbs hmain hkeys hne hbegin

theorem sanitizedPath_sanitizedPath {path : String} (hpath : path ∈ payload.namedPaths) :
    (payload.sanitize directory).2.sanitizedPath directory
        (payload.sanitizedPath directory path) =
      payload.sanitizedPath directory path := by
  cases h : payload.sharedDirectory? directory with
  | none => simp only [sanitizedPath, sanitize, h]
  | some shared =>
      rw [sanitize_of_sharedDirectory? h] at hne hbegin ⊢
      simp only [sanitizedPath, h]
      split
      case h_1 => rfl
      case h_2 again hagain =>
        exact stripPath_stripPath hmain hkeys h (hne shared rfl) habsolute hclimbs
          (hbegin shared rfl) hagain hpath

theorem sanitizedContract_sanitizedContract {contract : Contract}
    (hcontract : contract ∈ payload.contracts) :
    (payload.sanitize directory).2.sanitizedContract directory
        (payload.sanitizedContract directory contract) =
      payload.sanitizedContract directory contract := by
  have hmainSource := sanitizedPath_sanitizedPath habsolute hclimbs hmain hkeys hne hbegin
    (mem_namedPaths_of_mainSource hcontract (hmain contract hcontract))
  simp only [sanitizedContract, List.map_map, hmainSource, Contract.mk.injEq, and_true,
    true_and]
  refine List.map_congr_left fun path hpath => ?_
  rw [Function.comp_apply]
  by_cases hempty : path = ""
  · simp [hempty]
  rw [if_neg hempty]
  split
  case isTrue => rfl
  case isFalse =>
    exact sanitizedPath_sanitizedPath habsolute hclimbs hmain hkeys hne hbegin
      (mem_namedPaths_of_mem_sourceList hcontract hpath hempty)

theorem keys_sources_sanitize_sanitize :
    ((payload.sanitize directory).2.sanitize directory).2.sources.keys =
      (payload.sanitize directory).2.sources.keys := by
  rw [sources_sanitize (payload.sanitize directory).2]
  refine OrderedMap.keys_ofList_rename_eq_self _ _
    ((payload.sanitize directory).2.sanitizedRecord directory) fun key hkey => ?_
  obtain ⟨path, hpath, rfl⟩ := mem_keys_sources_sanitize.mp hkey
  exact sanitizedPath_sanitizedPath habsolute hclimbs hmain hkeys hne hbegin
    (mem_namedPaths_of_mem_keys hpath fun hempty => hkeys (hempty ▸ hpath))

theorem staysSanitized_of_beginApart : payload.StaysSanitized directory := by
  refine ⟨?_, keys_sources_sanitize_sanitize habsolute hclimbs hmain hkeys hne hbegin⟩
  rw [contracts_sanitize, contracts_sanitize, List.map_map]
  exact List.map_congr_left fun contract hcontract =>
    sanitizedContract_sanitizedContract habsolute hclimbs hmain hkeys hne hbegin hcontract

end

/--
From an absolute directory without dots on the way, sanitizing a second time changes no
list, no main source and no key, whatever either run takes off, exactly if what is written
for the paths does not all begin alike, or is all the same.  From a directory that is a
text it never does.  For that no path may be empty outside of lists, and none may lead to
the directory that is taken off at first, for those are the paths that the first run does
not take below it.
-/
theorem stays_sanitized_iff_paths_begin_apart (payload : Payload)
    (directory : BytePath) (habsolute : directory.toPath.isAbsolute = true)
    (hclimbs : .parent ∉ directory.toPath.components)
    (hmain : ∀ contract ∈ payload.contracts, contract.mainSource ≠ "")
    (hkeys : "" ∉ payload.sources.keys)
    (hne : ∀ shared, (payload.sanitize directory).1 = some shared →
      ∀ path ∈ payload.namedPaths, seen directory path ≠ shared) :
    (payload.StaysSanitized directory ↔
      ∀ shared, (payload.sanitize directory).1 = some shared →
        payload.BeginApart directory shared) ∧
    (directory.IsText → payload.StaysSanitized directory) := by
  have hapart : (∀ shared, (payload.sanitize directory).1 = some shared →
      payload.BeginApart directory shared) → payload.StaysSanitized directory :=
    staysSanitized_of_beginApart habsolute hclimbs hmain hkeys hne
  refine ⟨⟨fun hstays shared hshared => ?_, hapart⟩, fun hdirectory => hapart ?_⟩
  · have h := sharedDirectory?_of_sanitize hshared
    obtain ⟨hcontracts, hsources⟩ := hstays
    rw [sanitize_of_sharedDirectory? h] at hcontracts hsources
    exact beginApart_of_unchanged hmain hkeys h (hne shared hshared) habsolute hclimbs
      hcontracts hsources
  · exact fun shared hshared =>
      beginApart_of_isText hdirectory (sharedDirectory?_of_sanitize hshared)

/-- A source above the directory that the paths are seen from, one below it, and a gap. -/
def aboveAndBelow : Payload where
  contracts := [⟨"A", "0x60", "0x60", "0:13:0", "0:13:1", ["A", "", ".././B"], "A"⟩]
  sources := .ofList [
    ("A", ⟨"A", "contract A \x7b\x7d", .null, none, some 0, none⟩),
    (".././B", ⟨".././B", "contract B \x7b\x7d", .null, none, some 2, none⟩)]
  solcVersion := none
  skipped := []
  failed := []

theorem aboveAndBelow_stay_sanitized :
    (aboveAndBelow.sanitize strayDirectory).1 = some ⟨"/p"⟩ ∧
    (aboveAndBelow.sanitize strayDirectory).2.contracts.map (·.sourceList) =
      [["\uFFFD/A", "", "B"]] ∧
    ((aboveAndBelow.sanitize strayDirectory).2.sanitize strayDirectory).2.contracts.map
      (·.sourceList) = [["\uFFFD/A", "", "B"]] := by
  have hfirst : (aboveAndBelow.sanitize strayDirectory).1 = some ⟨"/p"⟩ ∧
      (aboveAndBelow.sanitize strayDirectory).2.contracts.map (·.sourceList) =
        [["\uFFFD/A", "", "B"]] := by decide +kernel
  have hshared : ∀ shared, (aboveAndBelow.sanitize strayDirectory).1 = some shared →
      ⟨"/p"⟩ = shared :=
    fun shared hshared => Option.some.inj (hfirst.1.symm.trans hshared)
  have hne : ∀ shared, (aboveAndBelow.sanitize strayDirectory).1 = some shared →
      ∀ path ∈ aboveAndBelow.namedPaths, seen strayDirectory path ≠ shared := by
    intro shared hsome
    obtain rfl := hshared shared hsome
    decide +kernel
  have hbegin : ∀ shared, (aboveAndBelow.sanitize strayDirectory).1 = some shared →
      aboveAndBelow.BeginApart strayDirectory shared := by
    intro shared hsome
    obtain rfl := hshared shared hsome
    decide +kernel
  obtain ⟨hstays, -⟩ := stays_sanitized_iff_paths_begin_apart aboveAndBelow strayDirectory
    (by decide +kernel) (by decide +kernel) (by decide +kernel) (by decide +kernel) hne
  obtain ⟨hagain, -⟩ := hstays.mpr hbegin
  exact ⟨hfirst.1, hfirst.2, by rw [hagain, hfirst.2]⟩

/-- A source in the stray directory and one in a directory that is written alike. -/
def lookalikes : Payload where
  contracts := [⟨"A", "0x60", "0x60", "0:13:0", "0:13:1", ["A", "/p/\uFFFD/B"], "A"⟩]
  sources := .empty
  solcVersion := none
  skipped := []
  failed := []

/-- What is written for both directories is taken off by the second run. -/
theorem lookalikes_are_renamed_again :
    strayDirectory.toPath.isAbsolute = true ∧
    .parent ∉ strayDirectory.toPath.components ∧
    (∀ contract ∈ lookalikes.contracts, contract.mainSource ≠ "") ∧
    "" ∉ lookalikes.sources.keys ∧
    (lookalikes.sanitize strayDirectory).1 = some ⟨"/p"⟩ ∧
    (∀ path ∈ lookalikes.namedPaths, seen strayDirectory path ≠ ⟨"/p"⟩) ∧
    (lookalikes.sanitize strayDirectory).2.contracts.map (·.sourceList) =
      [["\uFFFD/A", "\uFFFD/B"]] ∧
    ((lookalikes.sanitize strayDirectory).2.sanitize strayDirectory).2.contracts.map
      (·.sourceList) = [["A", "B"]] := by
  have hshared : lookalikes.sharedDirectory? strayDirectory = some ⟨"/p"⟩ := by decide +kernel
  have honce : lookalikes.strip strayDirectory ⟨"/p"⟩ =
      { lookalikes with
        contracts := [⟨"A", "0x60", "0x60", "0:13:0", "0:13:1",
          ["\uFFFD/A", "\uFFFD/B"], "\uFFFD/A"⟩] } := by
    rw [strip, Payload.mk.injEq]
    exact ⟨by decide +kernel, rfl, rfl, rfl, rfl⟩
  rw [sanitize_of_sharedDirectory? hshared, honce]
  exact ⟨by decide +kernel, by decide +kernel, by decide, by decide, rfl, by decide +kernel,
    rfl, by decide +kernel⟩

end ArtifactAtlas.Payload
