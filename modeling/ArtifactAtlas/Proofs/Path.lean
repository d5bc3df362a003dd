import ArtifactAtlas.Path
import ArtifactAtlas.Proofs.Text.Split
import Mathlib.Data.List.Infix

/-!
# Components and texts of paths

The components of a path never have a root or a dot behind the first place, and
names hold no slash.  Components like that come back from the text they are
rendered to, so two resolved paths are the same exactly if their components are.
-/

namespace ArtifactAtlas.Path

theorem component?_eq_name {piece : List Char} (hnil : piece ≠ []) (hdot : piece ≠ ['.'])
    (hdots : piece ≠ ['.', '.']) : component? piece = some (.name (String.ofList piece)) := by
  rw [component?]
  · exact hnil
  · exact hdot
  · exact hdots

theorem leading?_of_ne {piece : List Char} (h : piece ≠ ['.']) :
    leading? piece = component? piece := by
  rw [leading?]
  exact h

namespace Component

/-- A component that is read back from its text wherever it stands behind another. -/
def Inner (c : Component) : Prop :=
  '/' ∉ c.text.toList ∧ component? c.text.toList = some c

/-- A component that is read back from its text at the front of a relative path. -/
def Leading (c : Component) : Prop :=
  '/' ∉ c.text.toList ∧ leading? c.text.toList = some c

theorem inner_parent : Inner .parent := by
  constructor <;> decide

theorem Inner.leading {c : Component} (h : c.Inner) : c.Leading := by
  have hread := h.2
  refine ⟨h.1, ?_⟩
  rw [leading?_of_ne, hread]
  intro hdot
  rw [hdot] at hread
  cases hread

theorem Leading.text_ne_nil {c : Component} (h : c.Leading) : c.text.toList ≠ [] := by
  intro hnil
  have hread := h.2
  rw [hnil] at hread
  cases hread

theorem inner_of_component? {piece : List Char} {c : Component} (hslash : '/' ∉ piece)
    (h : component? piece = some c) : c.Inner := by
  unfold component? at h
  split at h
  case h_1 => cases h
  case h_2 => cases h
  case h_3 =>
    cases h
    exact inner_parent
  case h_4 hnil hdot hdots =>
    cases h
    refine ⟨by simpa [text] using hslash, ?_⟩
    rw [text, String.toList_ofList]
    exact component?_eq_name hnil hdot hdots

theorem leading_of_leading? {piece : List Char} {c : Component} (hslash : '/' ∉ piece)
    (h : leading? piece = some c) : c.Leading := by
  unfold leading? at h
  split at h
  case h_1 =>
    cases h
    constructor <;> decide
  case h_2 => exact (inner_of_component? hslash h).leading

end Component

/-! ## Components that a path can have -/

/-- Only the first component may be the root or a dot. -/
def WellFormed : List Component → Prop
  | [] => True
  | first :: rest => (first = .root ∨ first.Leading) ∧ ∀ c ∈ rest, c.Inner

theorem wellFormed_of_inner {components : List Component} (h : ∀ c ∈ components, c.Inner) :
    WellFormed components := by
  cases components with
  | nil => trivial
  | cons first rest =>
      simp only [List.forall_mem_cons] at h
      exact ⟨.inr h.1.leading, h.2⟩

theorem WellFormed.append {front back : List Component} (h : WellFormed front)
    (hback : ∀ c ∈ back, c.Inner) : WellFormed (front ++ back) := by
  cases front with
  | nil => exact wellFormed_of_inner hback
  | cons first rest =>
      refine ⟨h.1, fun c hc => ?_⟩
      rcases List.mem_append.mp hc with hc | hc
      · exact h.2 c hc
      · exact hback c hc

theorem WellFormed.of_front {front components : List Component} (h : WellFormed components)
    (hfront : front <+: components) : WellFormed front := by
  obtain ⟨back, rfl⟩ := hfront
  cases front with
  | nil => trivial
  | cons first rest => exact ⟨h.1, fun c hc => h.2 c (List.mem_append_left back hc)⟩

theorem WellFormed.inner_of_mem_back {front back : List Component}
    (h : WellFormed (front ++ back)) (hfront : front ≠ []) : ∀ c ∈ back, c.Inner := by
  cases front with
  | nil => contradiction
  | cons first rest => exact fun c hc => h.2 c (List.mem_append_right rest hc)

private theorem inner_of_mem_filterMap {pieces : List (List Char)}
    (hslash : ∀ piece ∈ pieces, '/' ∉ piece) {c : Component}
    (hc : c ∈ pieces.filterMap component?) : c.Inner := by
  obtain ⟨piece, hpiece, hread⟩ := List.mem_filterMap.mp hc
  exact Component.inner_of_component? (hslash piece hpiece) hread

theorem wellFormed_componentsOf (text : List Char) : WellFormed (componentsOf text) := by
  have hslash : ∀ piece ∈ Text.split '/' text, '/' ∉ piece :=
    fun piece => Text.not_mem_of_mem_split
  unfold componentsOf
  split
  case h_1 pieces _ =>
    exact ⟨.inl rfl, fun c hc => inner_of_mem_filterMap hslash hc⟩
  case h_2 => trivial
  case h_3 first rest _ heq =>
    rw [heq] at hslash
    simp only [List.forall_mem_cons] at hslash
    apply WellFormed.append
    · cases hfirst : leading? first with
      | none => trivial
      | some c =>
          exact ⟨.inr (Component.leading_of_leading? hslash.1 hfirst), by simp⟩
    · exact fun c hc => inner_of_mem_filterMap hslash.2 hc

theorem wellFormed_components (path : Path) : WellFormed path.components :=
  wellFormed_componentsOf path.text.toList

theorem components_empty : (Path.mk "").components = [] :=
  rfl

/-! ## Rendering and reading -/

private theorem filterMap_component?_texts {components : List Component}
    (h : ∀ c ∈ components, c.Inner) :
    (components.map (·.text.toList)).filterMap component? = components := by
  induction components with
  | nil => rfl
  | cons c rest ih =>
      simp only [List.forall_mem_cons] at h
      rw [List.map_cons, List.filterMap_cons, h.1.2, ih h.2]

theorem componentsOf_slash_cons (text : List Char) :
    componentsOf ('/' :: text) = .root :: (Text.split '/' text).filterMap component? := by
  rw [componentsOf, Text.split, if_pos rfl]
  rfl

theorem componentsOf_of_split {text first : List Char} {rest : List (List Char)}
    (hslash : text.head? ≠ some '/') (hsplit : Text.split '/' text = first :: rest) :
    componentsOf text = (leading? first).toList ++ rest.filterMap component? := by
  unfold componentsOf
  rw [hsplit]
  split
  case h_1 => simp at hslash
  case h_2 heq => cases heq
  case h_3 heq =>
    cases heq
    rfl

private theorem slash_not_mem_of_mem_texts {components : List Component}
    (h : ∀ c ∈ components, c.Inner) :
    ∀ piece ∈ components.map (·.text.toList), '/' ∉ piece := by
  intro piece hpiece
  obtain ⟨c, hc, rfl⟩ := List.mem_map.mp hpiece
  exact (h c hc).1

private theorem componentsOf_slash_join {components : List Component}
    (h : ∀ c ∈ components, c.Inner) :
    componentsOf ('/' :: Text.join ['/'] (components.map (·.text.toList))) =
      .root :: components := by
  rw [componentsOf_slash_cons]
  cases components with
  | nil => rfl
  | cons first rest =>
      rw [Text.split_join (by simp) (slash_not_mem_of_mem_texts h),
        filterMap_component?_texts h]

private theorem componentsOf_join {first : Component} {rest : List Component}
    (hfirst : first.Leading) (hrest : ∀ c ∈ rest, c.Inner) :
    componentsOf (Text.join ['/'] (first.text.toList :: rest.map (·.text.toList))) =
      first :: rest := by
  have hslash : ∀ piece ∈ first.text.toList :: rest.map (·.text.toList), '/' ∉ piece :=
    List.forall_mem_cons.mpr ⟨hfirst.1, slash_not_mem_of_mem_texts hrest⟩
  have hhead : (Text.join ['/'] (first.text.toList :: rest.map (·.text.toList))).head? ≠
      some '/' := by
    rw [Text.head?_join_cons hfirst.text_ne_nil]
    exact fun heq => hfirst.1 (List.mem_of_mem_head? heq)
  rw [componentsOf_of_split hhead (Text.split_join (by simp) hslash), hfirst.2,
    filterMap_component?_texts hrest]
  rfl

theorem componentsOf_renderChars {components : List Component} (h : WellFormed components) :
    componentsOf (renderChars components) = components := by
  unfold renderChars
  split
  case h_1 rest => exact componentsOf_slash_join h.2
  case h_2 hroot =>
    cases components with
    | nil => rfl
    | cons first rest =>
        have hne : first ≠ .root := fun heq => hroot rest (by rw [heq])
        exact componentsOf_join (h.1.resolve_left hne) h.2

theorem components_ofComponents {components : List Component} (h : WellFormed components) :
    (ofComponents components).components = components := by
  rw [ofComponents, Path.components, String.toList_ofList, componentsOf_renderChars h]

theorem inner_of_append_eq {front back : List Component} {path : Path}
    (h : front ++ back = path.components) (hfront : front ≠ []) : ∀ c ∈ back, c.Inner := by
  have hwell := wellFormed_components path
  rw [← h] at hwell
  exact hwell.inner_of_mem_back hfront

/-- What stands behind other components of a path comes back as it is. -/
theorem components_ofComponents_of_append {front back : List Component} {path : Path}
    (h : front ++ back = path.components) (hfront : front ≠ []) :
    (ofComponents back).components = back :=
  components_ofComponents (wellFormed_of_inner (inner_of_append_eq h hfront))

/-! ## Resolving dots -/

private theorem wellFormed_reverse_follow {trail : List Component}
    (h : WellFormed trail.reverse) {c : Component} (hc : c.Inner) :
    WellFormed (follow trail c).reverse := by
  cases c with
  | root => exact absurd hc.1 (by decide)
  | current => exact h
  | parent =>
      simp only [follow]
      split
      case h_1 => exact wellFormed_of_inner (by simpa using hc)
      case h_2 => exact ⟨.inl rfl, by simpa using hc⟩
      case h_3 last rest _ =>
        rw [List.reverse_cons] at h
        exact h.of_front (List.prefix_append _ _)
  | name text =>
      rw [follow]
      · rw [List.reverse_cons]
        exact h.append (by simpa using hc)
      all_goals simp

theorem wellFormed_resolveDots {components : List Component} (h : WellFormed components) :
    WellFormed (resolveDots components) := by
  -- the trail so far stands in reverse, and what is still to follow has no root or dot
  have hrun : ∀ (rest trail : List Component), (∀ c ∈ rest, c.Inner) →
      WellFormed trail.reverse → WellFormed (rest.foldl follow trail).reverse := by
    intro rest
    induction rest with
    | nil => exact fun trail _ htrail => htrail
    | cons c rest ih =>
        intro trail hrest htrail
        simp only [List.forall_mem_cons] at hrest
        exact ih _ hrest.2 (wellFormed_reverse_follow htrail hrest.1)
  cases components with
  | nil => trivial
  | cons first rest =>
      refine hrun rest (follow [] first) h.2 ?_
      cases first with
      | root => exact ⟨.inl rfl, by simp⟩
      | current => trivial
      | parent => exact wellFormed_of_inner (by simpa [follow] using Component.inner_parent)
      | name text => exact ⟨h.1, by simp⟩

theorem ofComponents_components_absoluteFrom (path base : Path) :
    ofComponents (path.absoluteFrom base).components = path.absoluteFrom base := by
  have h := wellFormed_resolveDots (wellFormed_components (base.join path))
  rw [absoluteFrom, normalize, components_ofComponents h]

theorem absoluteFrom_eq_of_components_eq {path other base directory : Path}
    (h : (path.absoluteFrom base).components = (other.absoluteFrom directory).components) :
    path.absoluteFrom base = other.absoluteFrom directory := by
  rw [← ofComponents_components_absoluteFrom path, h, ofComponents_components_absoluteFrom]

/-! ## Leading on from a directory -/

theorem commonComponents_prefix_left (front components : List Component) :
    commonComponents front components <+: front := by
  induction front generalizing components with
  | nil => exact List.nil_prefix
  | cons c front ih =>
      cases components with
      | nil => exact List.nil_prefix
      | cons d components =>
          rw [commonComponents]
          split
          case isTrue => exact List.prefix_cons_inj c |>.mpr (ih components)
          case isFalse => exact List.nil_prefix

theorem commonComponents_prefix_right (front components : List Component) :
    commonComponents front components <+: components := by
  induction front generalizing components with
  | nil => exact List.nil_prefix
  | cons c front ih =>
      cases components with
      | nil => exact List.nil_prefix
      | cons d components =>
          rw [commonComponents]
          split
          case isTrue heq => exact heq ▸ (List.prefix_cons_inj c).mpr (ih components)
          case isFalse => exact List.nil_prefix

theorem foldl_commonComponents_prefix (shared : List Component) (paths : List Path) :
    let common := paths.foldl (fun shared path => commonComponents shared path.components)
      shared
    common <+: shared ∧ ∀ path ∈ paths, common <+: path.components := by
  induction paths generalizing shared with
  | nil => simp
  | cons path rest ih =>
      obtain ⟨hshared, hrest⟩ := ih (commonComponents shared path.components)
      refine ⟨hshared.trans (commonComponents_prefix_left _ _), ?_⟩
      rw [List.forall_mem_cons]
      exact ⟨hshared.trans (commonComponents_prefix_right _ _), hrest⟩

theorem exists_of_common?_eq_some {paths : List Path} {shared : Path}
    (h : common? paths = some shared) :
    ∃ components, ofComponents components = shared ∧ WellFormed components ∧
      ∀ path ∈ paths, components <+: path.components := by
  cases paths with
  | nil => cases h
  | cons first rest =>
      have hcommon := foldl_commonComponents_prefix first.components rest
      rw [common?] at h
      split at h
      case h_1 => cases h
      case h_2 =>
        cases h
        exact ⟨_, rfl, (wellFormed_components first).of_front hcommon.1,
          List.forall_mem_cons.mpr hcommon⟩

theorem prefix_of_common? {paths : List Path} {shared : Path}
    (h : common? paths = some shared) :
    ∀ path ∈ paths, shared.components <+: path.components := by
  obtain ⟨components, rfl, hwell, hleads⟩ := exists_of_common?_eq_some h
  rwa [components_ofComponents hwell]

theorem ofComponents_components_of_common? {paths : List Path} {shared : Path}
    (h : common? paths = some shared) : ofComponents shared.components = shared := by
  obtain ⟨components, rfl, hwell, -⟩ := exists_of_common?_eq_some h
  rw [components_ofComponents hwell]

theorem below?_eq_some_iff {path directory rest : Path} :
    path.below? directory = some rest ↔
      ∃ components, directory.components ++ components = path.components ∧
        ofComponents components = rest := by
  rw [below?, Option.map_eq_some_iff]
  simp only [List.isPrefixOf?_eq_some_iff_append_eq]

end ArtifactAtlas.Path
