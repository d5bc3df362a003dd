import ArtifactAtlas.Proofs.Artifact.IndexTable
import Mathlib.Data.List.Count
import Mathlib.Order.Bounds.Basic

/-!
# Source lists of compiler output

A compiler's output gives its sources numbers.  Where every source has one and all of
them differ, the list has each source at its number; where any is missing or comes twice,
it has the sources in the order of the document.  Either way a list that is made names
every source once, and none that the output does not have.
-/

namespace ArtifactAtlas.SourceList

/-- Whether the output of a compiler gives a source that number. -/
def HasId (source : Json) (id : Nat) : Prop :=
  source.get? "id" = some (Json.ofNat id)

/-- Every source has a number, and no two of them have the same. -/
structure Numbered (sources : List (String × Json)) : Prop where
  numbered : ∀ source ∈ sources, ∃ id, HasId source.2 id
  apart : sources.Pairwise fun source other => ∀ id, HasId source.2 id → ¬ HasId other.2 id

/-- Each source is at its number, every other place is empty, and the list ends with the
source of the largest number. -/
structure LaysOut (list : SourceList) (sources : List (String × Json)) : Prop where
  placed : ∀ source ∈ sources, ∀ id, HasId source.2 id → list[id]? = some source.1
  vacant : ∀ place < list.length, (∀ source ∈ sources, ¬ HasId source.2 place) →
    list[place]? = some ""
  length : ∃ largest, IsGreatest {id | ∃ source ∈ sources, HasId source.2 id} largest ∧
    list.length = largest + 1

variable {sources others : List (String × Json)} {list other : SourceList} {origin : Path}

/-! ## Numbers -/

theorem natural?_eq_some_iff {value : Json} {n : Nat} :
    value.natural? = some n ↔ value = Json.ofNat n := by
  rw [Json.natural?.eq_def]
  split
  case h_1 => simp [Json.ofNat]
  case h_2 hother => exact ⟨fun h => (nomatch h), fun h => absurd h (hother n)⟩

theorem idOf?_eq_some_iff {source : Json} {id : Nat} :
    idOf? source = some id ↔ HasId source id := by
  simp only [idOf?, HasId, Option.bind_eq_some_iff, natural?_eq_some_iff,
    exists_eq_right]

theorem numbered_iff : Numbered sources ↔
    (∀ source ∈ sources, ∃ id, idOf? source.2 = some id) ∧
      (sources.map fun source => idOf? source.2).Nodup := by
  simp only [idOf?_eq_some_iff]
  constructor
  · intro h
    refine ⟨h.numbered, ?_⟩
    rw [List.Nodup, List.pairwise_map]
    refine h.apart.imp_of_mem fun {source other} hsource hother hapart heq => ?_
    obtain ⟨id, hid⟩ := h.numbered source hsource
    rw [idOf?_eq_some_iff.mpr hid] at heq
    exact hapart id hid (idOf?_eq_some_iff.mp heq.symm)
  · rintro ⟨hnumbered, hapart⟩
    refine ⟨hnumbered, ?_⟩
    rw [List.Nodup, List.pairwise_map] at hapart
    refine hapart.imp fun hne id hid hother => hne ?_
    rw [idOf?_eq_some_iff.mpr hid, idOf?_eq_some_iff.mpr hother]

theorem Numbered.perm (h : Numbered sources) (hperm : sources.Perm others) :
    Numbered others := by
  rw [numbered_iff] at h ⊢
  exact ⟨fun source hsource => h.1 source (hperm.mem_iff.mpr hsource),
    (hperm.map _).nodup_iff.mp h.2⟩

/-! ## Layouts -/

theorem LaysOut.perm (h : list.LaysOut sources) (hperm : sources.Perm others) :
    list.LaysOut others := by
  obtain ⟨hplaced, hvacant, hlength⟩ := h
  simp only [hperm.mem_iff] at hplaced hvacant hlength
  exact ⟨hplaced, hvacant, hlength⟩

theorem LaysOut.unique (h : list.LaysOut sources) (hother : other.LaysOut sources) :
    list = other := by
  obtain ⟨largest, hlargest, hlength⟩ := h.length
  obtain ⟨largest', hlargest', hlength'⟩ := hother.length
  have hsame : list.length = other.length := by
    rw [hlength, hlength', hlargest.unique hlargest']
  apply List.ext_getElem?
  intro place
  by_cases hplace : place < list.length
  · by_cases hid : ∃ source ∈ sources, HasId source.2 place
    · obtain ⟨source, hsource, hid⟩ := hid
      rw [h.placed source hsource place hid, hother.placed source hsource place hid]
    · simp only [not_exists, not_and] at hid
      rw [h.vacant place hplace hid, hother.vacant place (hsame ▸ hplace) hid]
  · rw [List.getElem?_eq_none (by omega), List.getElem?_eq_none (by omega)]

/-- The entries of a table of sources: the number of each and its path. -/
abbrev Tabled (sources : List (String × Json)) (table : List (Nat × String)) : Prop :=
  List.Forall₂ (StandsFor (fun source => idOf? source.2) Prod.fst) sources table

theorem Tabled.mem {table : List (Nat × String)} (h : Tabled sources table)
    {source : String × Json} (hsource : source ∈ sources) {id : Nat} (hid : HasId source.2 id) :
    (id, source.1) ∈ table := by
  obtain ⟨entry, hentry, hindex, hname⟩ := exists_of_mem_left_of_forall₂ h hsource
  have hsame : some id = some entry.1 := (idOf?_eq_some_iff.mpr hid).symm.trans hindex
  rwa [Option.some.inj hsame, hname]

theorem Tabled.exists_source {table : List (Nat × String)} (h : Tabled sources table)
    {entry : Nat × String} (hentry : entry ∈ table) :
    ∃ source ∈ sources, HasId source.2 entry.1 ∧ source.1 = entry.2 := by
  obtain ⟨source, hsource, hindex, hname⟩ := exists_of_mem_of_forall₂ h hentry
  exact ⟨source, hsource, idOf?_eq_some_iff.mp hindex, hname⟩

theorem Tabled.laysOut {table : List (Nat × String)} (h : Tabled sources table)
    (hne : sources ≠ []) (hnodup : (table.map Prod.fst).Nodup) :
    LaysOut (table.foldl (fun list entry => put list entry.1 entry.2) []) sources := by
  generalize hlist : table.foldl (fun list entry => put list entry.1 entry.2) [] = list
  -- the list reaches a place if and only if the place or one behind it has an entry
  have hlength {place : Nat} : place < list.length ↔ ∃ entry ∈ table, place ≤ entry.1 := by
    rw [← hlist, lt_length_foldl_put_iff]
    simp
  have hget {place : Nat} (hplace : place < list.length) :
      list[place]? = some (list[place]?.getD "") := by
    rw [List.getElem?_eq_getElem hplace, Option.getD_some]
  refine ⟨fun source hsource id hid => ?_, fun place hplace hvacant => ?_, ?_⟩
  · have hentry := h.mem hsource hid
    rw [hget (hlength.mpr ⟨_, hentry, Nat.le_refl id⟩), ← hlist, getD_foldl_put [] hnodup hentry]
  · have hfree : place ∉ table.map Prod.fst := by
      rw [List.mem_map]
      rintro ⟨entry, hentry, rfl⟩
      obtain ⟨source, hsource, hid, -⟩ := h.exists_source hentry
      exact hvacant source hsource hid
    rw [hget hplace, ← hlist, getD_foldl_put_of_not_mem [] hfree]
    rfl
  · obtain ⟨first, hfirst⟩ := List.exists_mem_of_ne_nil sources hne
    obtain ⟨entry, hentry, -⟩ := exists_of_mem_left_of_forall₂ h hfirst
    have hpos : 0 < list.length := hlength.mpr ⟨entry, hentry, Nat.zero_le _⟩
    obtain ⟨last, hlast, hle⟩ := hlength.mp (Nat.sub_one_lt_of_lt hpos)
    have hlt : last.1 < list.length := hlength.mpr ⟨last, hlast, Nat.le_refl _⟩
    obtain ⟨source, hsource, hid, -⟩ := h.exists_source hlast
    refine ⟨last.1, ⟨⟨source, hsource, hid⟩, ?_⟩, by omega⟩
    rintro id ⟨source, hsource, hid⟩
    have hplace := hlength.mpr ⟨_, h.mem hsource hid, Nat.le_refl id⟩
    omega

/-! ## Lists of outputs -/

theorem ofOutput_of_not_numbered (h : ¬ Numbered sources) :
    ofOutput origin (.object sources) = .ok (sources.map Prod.fst) := by
  rw [ofOutput]
  split
  case h_1 table htable =>
    have htabled : Tabled sources table := mapM_index?_eq_some_iff.mp htable
    rw [if_neg]
    rw [nodup_table_iff htabled]
    intro hnodup
    refine h (numbered_iff.mpr ⟨fun source hsource => ?_, hnodup⟩)
    obtain ⟨entry, -, hentry⟩ := exists_of_mem_left_of_forall₂ htabled hsource
    exact ⟨entry.1, hentry.1⟩
  case h_2 => rfl

theorem Numbered.exists_table (h : Numbered sources) :
    ∃ table, Tabled sources table ∧ (table.map Prod.fst).Nodup ∧
      ∀ origin, ofOutput origin (.object sources) = ofTable origin table := by
  obtain ⟨hnumbered, hnodup⟩ := numbered_iff.mp h
  obtain ⟨table, htabled⟩ : ∃ table, Tabled sources table := SourceList.exists_table hnumbered
  have htable := mapM_index?_eq_some_iff.mpr htabled
  rw [← nodup_table_iff htabled] at hnodup
  refine ⟨table, htabled, hnodup, fun origin => ?_⟩
  rw [ofOutput]
  split
  case h_1 found hfound =>
    obtain rfl : found = table := Option.some.inj (hfound.symm.trans htable)
    rw [if_pos hnodup]
  case h_2 hnone => cases hnone.symm.trans htable

theorem perm_named_ofOutput (h : ofOutput origin (.object sources) = .ok list) :
    list.named.Perm (named (sources.map Prod.fst)) := by
  by_cases hnumbered : Numbered sources
  · obtain ⟨table, htabled, hnodup, htable⟩ := hnumbered.exists_table
    rw [htable] at h
    have hperm := perm_named_ofTable h hnodup
    rwa [map_snd_table htabled] at hperm
  · rw [ofOutput_of_not_numbered hnumbered] at h
    cases h
    exact .refl _

theorem count_named {path : String} (hne : path ≠ "") (list : SourceList) :
    list.named.count path = list.count path :=
  List.count_filter (by simpa using hne)

theorem Numbered.exists_laysOut (origin : Path) (h : Numbered sources) (hne : sources ≠ [])
    (hrange : ∀ source ∈ sources, ∀ id, HasId source.2 id → id ≤ largestIndex) :
    ∃ list, list.LaysOut sources ∧ ofOutput origin (.object sources) = .ok list := by
  obtain ⟨table, htabled, hnodup, htable⟩ := h.exists_table
  refine ⟨_, htabled.laysOut hne hnodup, ?_⟩
  rw [htable, ofTable_eq_ok]
  intro entry hentry
  obtain ⟨source, hsource, hid, -⟩ := htabled.exists_source hentry
  exact hrange source hsource _ hid

theorem Numbered.exists_error (h : Numbered sources)
    (hrange : ∃ source ∈ sources, ∃ id, HasId source.2 id ∧ largestIndex < id) :
    ∃ source ∈ sources, ∃ id, HasId source.2 id ∧ largestIndex < id ∧
      ofOutput origin (.object sources) =
        .error (.build origin (.indexOutOfRange id source.1)) := by
  obtain ⟨table, htabled, -, htable⟩ := h.exists_table
  obtain ⟨source, hsource, id, hid, hlarge⟩ := hrange
  cases hfind : table.find? fun entry => largestIndex < entry.1 with
  | none =>
      have hall := List.find?_eq_none.mp hfind _ (htabled.mem hsource hid)
      exact absurd hlarge (by simpa using hall)
  | some entry =>
      obtain ⟨first, hfirst, hid, hname⟩ := htabled.exists_source (List.mem_of_find?_eq_some hfind)
      refine ⟨first, hfirst, entry.1, hid, by simpa using List.find?_some hfind, ?_⟩
      rw [htable, ofTable_eq, hfind, hname]

/--
A source list that is made from a compiler's output has every source once and nothing
else.  If there are sources, each with a number of its own, they are laid out by their
numbers whatever their order, unless a number is out of range and the output is refused;
otherwise they are listed in the order of the document.
-/
theorem ofOutput_lays_out_or_lists_sources (origin : Path) (sources : List (String × Json))
    (hnames : (sources.map Prod.fst).Nodup) :
    (∀ list, ofOutput origin (.object sources) = .ok list → ∀ path, path ≠ "" →
      list.count path = if path ∈ sources.map Prod.fst then 1 else 0) ∧
    (sources ≠ [] ∧ Numbered sources →
      (∃ source ∈ sources, ∃ id, HasId source.2 id ∧ 65535 < id ∧
        ofOutput origin (.object sources) =
          .error (.build origin (.indexOutOfRange id source.1))) ∨
      (∀ source ∈ sources, ∀ id, HasId source.2 id → id ≤ 65535) ∧
        ∃ list, list.LaysOut sources ∧ ∀ others, others.Perm sources →
          ofOutput origin (.object others) = .ok list) ∧
    (¬ (sources ≠ [] ∧ Numbered sources) →
      ofOutput origin (.object sources) = .ok (sources.map Prod.fst)) := by
  refine ⟨fun list hlist path hne => ?_, ?_, fun hnumbered => ?_⟩
  · rw [← count_named hne, (perm_named_ofOutput hlist).count_eq, count_named hne, hnames.count]
  · rintro ⟨hne, hnumbered⟩
    by_cases hrange : ∃ source ∈ sources, ∃ id, HasId source.2 id ∧ 65535 < id
    · exact .inl (hnumbered.exists_error hrange)
    · have hrange : ∀ source ∈ sources, ∀ id, HasId source.2 id → id ≤ 65535 := by
        intro source hsource id hid
        by_contra hlarge
        exact hrange ⟨source, hsource, id, hid, Nat.lt_of_not_le hlarge⟩
      obtain ⟨list, hlist, -⟩ := hnumbered.exists_laysOut origin hne hrange
      refine .inr ⟨hrange, list, hlist, fun others hperm => ?_⟩
      obtain ⟨other, hother, heq⟩ := (hnumbered.perm hperm.symm).exists_laysOut origin
        (fun hnil => hne (hnil ▸ hperm).nil_eq.symm)
        fun source hsource => hrange source (hperm.mem_iff.mp hsource)
      rw [heq, hlist.unique (hother.perm hperm)]
  · by_cases hempty : sources = []
    · rw [hempty]
      rfl
    · exact ofOutput_of_not_numbered fun h => hnumbered ⟨hempty, h⟩

/-- Three sources that are not in the order of their numbers, and a number without a source. -/
def gappedOutput : List (String × Json) :=
  [("contracts/B.sol", .object [("id", .ofNat 1)]),
    ("contracts/A.sol", .object [("id", .ofNat 0)]),
    ("lib/C.sol", .object [("id", .ofNat 3)])]

theorem gappedOutput_is_laid_out :
    (gappedOutput.map Prod.fst).Nodup ∧
    ofOutput ⟨"out.json"⟩ (.object gappedOutput) =
      .ok ["contracts/A.sol", "contracts/B.sol", "", "lib/C.sol"] ∧
    LaysOut ["contracts/A.sol", "contracts/B.sol", "", "lib/C.sol"] gappedOutput := by
  have hnames : (gappedOutput.map Prod.fst).Nodup := by decide
  have hlist : ofOutput ⟨"out.json"⟩ (.object gappedOutput) =
      .ok ["contracts/A.sol", "contracts/B.sol", "", "lib/C.sol"] := by decide +kernel
  obtain ⟨-, hnumbered, -⟩ :=
    ofOutput_lays_out_or_lists_sources ⟨"out.json"⟩ gappedOutput hnames
  have hapart : gappedOutput ≠ [] ∧ Numbered gappedOutput := by
    rw [numbered_iff]
    simp only [← Option.isSome_iff_exists]
    decide +kernel
  obtain ⟨source, hsource, id, -, -, herror⟩ | ⟨-, list, hlays, hall⟩ := hnumbered hapart
  · rw [hlist] at herror
    cases herror
  · have hsame := hall gappedOutput (.refl _)
    rw [hlist, Except.ok.injEq] at hsame
    exact ⟨hnames, hlist, hsame ▸ hlays⟩

end ArtifactAtlas.SourceList
