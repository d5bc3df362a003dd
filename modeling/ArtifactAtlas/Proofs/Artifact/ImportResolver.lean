import ArtifactAtlas.Artifact.ImportGraph
import ArtifactAtlas.Proofs.Artifact.BuildIndex

/-!
# The sources that imports stand for

One resolver serves all files and remembers what it has searched for.  What it remembers
is what it would find again (`ImportResolver.Faithful`), so each answer is that of a
search anew.
-/

namespace ArtifactAtlas

/-! ## The last of the heaviest -/

/-- A text that is among others, and of which all others fall short or come before it. -/
structure LastHeaviest (weight : String → Nat) (texts : List String) (best : String) :
    Prop where
  mem : best ∈ texts
  heaviest : ∀ text ∈ texts,
    weight text < weight best ∨ weight text = weight best ∧ text ≤ best

theorem LastHeaviest.unique {weight : String → Nat} {texts : List String}
    {first second : String} (hfirst : LastHeaviest weight texts first)
    (hsecond : LastHeaviest weight texts second) : first = second := by
  have hle := hsecond.heaviest first hfirst.mem
  have hge := hfirst.heaviest second hsecond.mem
  rcases hle with hlt | ⟨heq, hle⟩
  · omega
  · rcases hge with hlt | ⟨-, hge⟩
    · omega
    · exact Std.le_antisymm hle hge

/-- Over texts in order, the search keeps the last of the heaviest so far. -/
theorem exists_lastHeaviest_foldl (weight : String → Nat) (first : String)
    (rest : List String) (hsorted : (first :: rest).Pairwise (· < ·)) :
    ∃ best, rest.foldl (fun best text =>
        match best with
        | none => some text
        | some old => if weight old ≤ weight text then some text else some old)
        (some first) = some best ∧
      LastHeaviest weight (first :: rest) best := by
  induction rest generalizing first with
  | nil => exact ⟨first, rfl, List.mem_singleton_self first, by simp [Std.le_refl]⟩
  | cons text rest ih =>
      simp only [List.pairwise_cons, List.forall_mem_cons] at hsorted
      obtain ⟨⟨hlt, hfirst⟩, htext, hrest⟩ := hsorted
      rw [List.foldl_cons]
      simp only
      by_cases hweight : weight first ≤ weight text
      · obtain ⟨best, hfold, hbest⟩ := ih text (List.pairwise_cons.mpr ⟨htext, hrest⟩)
        refine ⟨best, by rw [if_pos hweight, hfold], .tail _ hbest.mem, ?_⟩
        refine List.forall_mem_cons.mpr ⟨?_, hbest.heaviest⟩
        rcases hbest.heaviest text List.mem_cons_self with hless | ⟨heq, hle⟩
        · exact .inl (by omega)
        · rcases Nat.lt_or_eq_of_le (heq ▸ hweight) with hless | hsame
          · exact .inl hless
          · exact .inr ⟨hsame, Std.le_of_lt (Std.lt_of_lt_of_le hlt hle)⟩
      · obtain ⟨best, hfold, hbest⟩ := ih first (List.pairwise_cons.mpr ⟨hfirst, hrest⟩)
        have hmem : best ∈ first :: text :: rest := by
          rcases List.mem_cons.mp hbest.mem with rfl | hmem
          · exact List.mem_cons_self
          · exact .tail _ (.tail _ hmem)
        refine ⟨best, by rw [if_neg hweight, hfold], hmem, ?_⟩
        obtain ⟨hhead, htail⟩ := List.forall_mem_cons.mp hbest.heaviest
        refine List.forall_mem_cons.mpr ⟨hhead, List.forall_mem_cons.mpr ⟨?_, htail⟩⟩
        rcases hhead with hless | ⟨heq, -⟩ <;> exact .inl (by omega)

theorem lastHeaviest?_eq_some_iff {weight : String → Nat} {texts : List String}
    (hsorted : texts.Pairwise (· < ·)) {best : String} :
    lastHeaviest? weight texts = some best ↔ LastHeaviest weight texts best := by
  cases texts with
  | nil => exact ⟨fun h => (nomatch h), fun h => (nomatch h.mem)⟩
  | cons first rest =>
      obtain ⟨found, hfold, hfound⟩ := exists_lastHeaviest_foldl weight first rest hsorted
      have hsearch : lastHeaviest? weight (first :: rest) = some found := hfold
      rw [hsearch, Option.some.injEq]
      exact ⟨fun heq => heq ▸ hfound, hfound.unique⟩

theorem lastHeaviest?_eq_none_iff {weight : String → Nat} {texts : List String}
    (hsorted : texts.Pairwise (· < ·)) : lastHeaviest? weight texts = none ↔ texts = [] := by
  cases texts with
  | nil => exact ⟨fun _ => rfl, fun _ => rfl⟩
  | cons first rest =>
      obtain ⟨found, hfold, -⟩ := exists_lastHeaviest_foldl weight first rest hsorted
      have hsearch : lastHeaviest? weight (first :: rest) = some found := hfold
      simp [hsearch]

/-! ## Searching anew -/

def Declared (files : List BuildFile) (sourceKey source : String) : Prop :=
  ∃ file ∈ files, file.text? sourceKey = some source

/-- Whether an import stands for a source, given which sources there are: one of them for
itself, any other import for the source with its file name that shares the most parts with
it at the end, and of several for the last one in order. -/
inductive StandsFor (declared : String → Prop) (path : String) : String → Prop
  | itself (h : declared path) : StandsFor declared path path
  | closest {source : String} (hpath : ¬ declared path) (hsource : declared source)
      (hname : sourceFileName source = sourceFileName path)
      (hclosest : ∀ other, declared other → sourceFileName other = sourceFileName path →
        sharedParts other path < sharedParts source path ∨
          sharedParts other path = sharedParts source path ∧ other ≤ source) :
      StandsFor declared path source

namespace BuildIndex

/-- The declared sources with the file name of an import. -/
def namesakes (index : BuildIndex) (path : String) : List String :=
  index.sourcePaths.filter fun source => sourceFileName source = sourceFileName path

/-- The declared source that an import stands for, searched for anew. -/
def resolveImport? (index : BuildIndex) (path : String) : Option String :=
  if index.declares path then some path
  else lastHeaviest? (sharedParts · path) (index.namesakes path)

section

variable {sourceKey : String} {files : List BuildFile} {index : BuildIndex}
  (hindex : ofFiles sourceKey files = .ok index)

include hindex

theorem declares_iff {source : String} :
    index.declares source = true ↔ Declared files sourceKey source := by
  rw [declares_iff_mem, mem_sourcePaths_iff hindex, Declared]

theorem mem_namesakes_iff {path source : String} :
    source ∈ index.namesakes path ↔
      Declared files sourceKey source ∧ sourceFileName source = sourceFileName path := by
  rw [namesakes, List.mem_filter, decide_eq_true_iff, mem_sourcePaths_iff hindex, Declared]

theorem resolveImport?_eq_some_iff {path source : String} :
    index.resolveImport? path = some source ↔
      StandsFor (Declared files sourceKey) path source := by
  have hsorted : (index.namesakes path).Pairwise (· < ·) :=
    index.groups.pairwise_keys.filter _
  rw [resolveImport?]
  split
  case isTrue hdeclares =>
    have hpath := (declares_iff hindex).mp hdeclares
    rw [Option.some.injEq]
    constructor
    · rintro rfl
      exact .itself hpath
    · rintro (- | ⟨hnot, -⟩)
      · rfl
      · contradiction
  case isFalse hdeclares =>
    have hpath : ¬ Declared files sourceKey path := mt (declares_iff hindex).mpr hdeclares
    rw [lastHeaviest?_eq_some_iff hsorted]
    constructor
    · rintro ⟨hmem, hheaviest⟩
      obtain ⟨hsource, hname⟩ := (mem_namesakes_iff hindex).mp hmem
      exact .closest hpath hsource hname fun other hother hsame =>
        hheaviest other ((mem_namesakes_iff hindex).mpr ⟨hother, hsame⟩)
    · rintro (hdeclared | ⟨-, hsource, hname, hclosest⟩)
      · contradiction
      · refine ⟨(mem_namesakes_iff hindex).mpr ⟨hsource, hname⟩, fun other hmem => ?_⟩
        obtain ⟨hother, hsame⟩ := (mem_namesakes_iff hindex).mp hmem
        exact hclosest other hother hsame

theorem resolveImport?_eq_none_iff {path : String} :
    index.resolveImport? path = none ↔
      ∀ source, Declared files sourceKey source → sourceFileName source ≠ sourceFileName path := by
  have hsorted : (index.namesakes path).Pairwise (· < ·) :=
    index.groups.pairwise_keys.filter _
  have hnamesakes : index.namesakes path = [] ↔
      ∀ source, Declared files sourceKey source →
        sourceFileName source ≠ sourceFileName path := by
    simp only [List.eq_nil_iff_forall_not_mem, mem_namesakes_iff hindex, not_and, ne_eq]
  rw [resolveImport?]
  split
  case isTrue hdeclares =>
    have hpath := (declares_iff hindex).mp hdeclares
    exact ⟨fun h => (nomatch h), fun h => absurd rfl (h path hpath)⟩
  case isFalse => rw [lastHeaviest?_eq_none_iff hsorted, hnamesakes]

/-- What an import stands for does not depend on the order of the files. -/
theorem resolveImport?_eq_of_perm {others : List BuildFile} {shuffled : BuildIndex}
    (hshuffled : ofFiles sourceKey others = .ok shuffled) (hperm : others.Perm files) :
    shuffled.resolveImport? = index.resolveImport? := by
  have hdeclared : Declared others sourceKey = Declared files sourceKey := by
    funext source
    simp only [Declared, hperm.mem_iff]
  funext path
  ext source
  rw [resolveImport?_eq_some_iff hshuffled, hdeclared, resolveImport?_eq_some_iff hindex]

end

end BuildIndex

/-! ## The resolver -/

namespace ImportResolver

variable {index : BuildIndex} {resolver : ImportResolver}

/-- What the resolver knows is so: its table has the namesakes of each file name, and what
it remembers it would find again. -/
structure Faithful (index : BuildIndex) (resolver : ImportResolver) : Prop where
  sameIndex : resolver.index = index
  namesakes : ∀ path,
    (resolver.byFileName.get? (sourceFileName path)).getD [] = index.namesakes path
  remembers : ∀ path source?, resolver.found.get? path = some source? →
    source? = index.resolveImport? path

theorem faithful_ofIndex (index : BuildIndex) : Faithful index (ofIndex index) where
  sameIndex := rfl
  namesakes path := by
    have hgroups := OrderedMap.getD_get?_foldl_push .empty
      (index.sourcePaths.map fun source => (sourceFileName source, source))
      (sourceFileName path)
    rw [List.foldl_map, List.filter_map, List.map_map] at hgroups
    rw [ofIndex, hgroups]
    simp [OrderedMap.get?, OrderedMap.empty, Entries.lookup, BuildIndex.namesakes,
      Function.comp_def]
  remembers path source? h := by cases h

/-- The step: the answer is the one that a new search would give, and the resolver stays
faithful. -/
theorem Faithful.resolve (h : Faithful index resolver) (path : String) :
    (resolver.resolve path).1 = index.resolveImport? path ∧
      Faithful index (resolver.resolve path).2 := by
  rw [ImportResolver.resolve, h.sameIndex]
  split
  case isTrue hdeclares =>
    exact ⟨by rw [BuildIndex.resolveImport?, if_pos hdeclares], h⟩
  case isFalse hdeclares =>
    split
    case h_1 source? hfound => exact ⟨h.remembers path source? hfound, h⟩
    case h_2 =>
      have hsearch : lastHeaviest? (sharedParts · path)
          ((resolver.byFileName.get? (sourceFileName path)).getD []) =
            index.resolveImport? path := by
        rw [h.namesakes, BuildIndex.resolveImport?, if_neg hdeclares]
      refine ⟨hsearch, rfl, h.namesakes, fun other source? hfound => ?_⟩
      rw [OrderedMap.get?_insert] at hfound
      split at hfound
      case isTrue heq =>
        subst heq
        cases hfound
        exact hsearch
      case isFalse => exact h.remembers other source? hfound

end ImportResolver

end ArtifactAtlas
