import ArtifactAtlas.Proofs.Path

/-!
# Resolved paths

Resolving dots leaves names behind at most a root and two dots, and components like
that are resolved already.  A relative path is resolved behind the components of the
directory it is seen from.  So what is left of a resolved path below a directory
leads, seen from that directory, to where the path led.
-/

namespace ArtifactAtlas.Path

/-! ## Resolving twice -/

/-- What can lie behind on the way along a path, the last component first. -/
inductive Trail : List Component → Prop
  | start : Trail []
  | root : Trail [.root]
  | up : Trail [.parent]
  | above : Trail [.parent, .root]
  | name {trail : List Component} (text : String) (h : Trail trail) :
      Trail (.name text :: trail)

theorem Trail.follow {trail : List Component} (h : Trail trail) {c : Component}
    (hc : c ≠ .root) : Trail (Path.follow trail c) := by
  cases c with
  | root => contradiction
  | current => exact h
  | parent =>
      cases h with
      | start => exact .up
      | root => exact .above
      | up => exact .start
      | above => exact .root
      | name text h => exact h
  | name text => exact .name text h

theorem Trail.foldl_follow {trail : List Component} (h : Trail trail)
    {components : List Component} (hroot : .root ∉ components) :
    Trail (components.foldl Path.follow trail) := by
  induction components generalizing trail with
  | nil => exact h
  | cons c rest ih =>
      rw [List.mem_cons, not_or] at hroot
      exact ih (h.follow (Ne.symm hroot.1)) hroot.2

theorem root_not_mem_of_inner {components : List Component} (h : ∀ c ∈ components, c.Inner) :
    .root ∉ components := by
  intro hroot
  exact absurd (h _ hroot).1 (by decide)

theorem trail_resolveDots {components : List Component} (h : WellFormed components) :
    Trail (resolveDots components).reverse := by
  rw [resolveDots, List.reverse_reverse]
  cases components with
  | nil => exact .start
  | cons first rest =>
      have hrest := root_not_mem_of_inner h.2
      rw [List.foldl_cons]
      cases first with
      | root => exact Trail.root.foldl_follow hrest
      | current => exact Trail.start.foldl_follow hrest
      | parent => exact Trail.up.foldl_follow hrest
      | name text => exact (Trail.start.name text).foldl_follow hrest

theorem Trail.foldl_follow_reverse {trail : List Component} (h : Trail trail) :
    trail.reverse.foldl Path.follow [] = trail := by
  induction h with
  | start => rfl
  | root => rfl
  | up => rfl
  | above => rfl
  | name text _ ih => rw [List.reverse_cons, List.foldl_append, ih]; rfl

theorem Trail.resolveDots_eq {components : List Component} (h : Trail components.reverse) :
    resolveDots components = components := by
  have htrail := h.foldl_follow_reverse
  rw [List.reverse_reverse] at htrail
  rw [resolveDots, htrail, List.reverse_reverse]

theorem resolveDots_resolveDots {components : List Component} (h : WellFormed components) :
    resolveDots (resolveDots components) = resolveDots components :=
  (trail_resolveDots h).resolveDots_eq

/-- Behind a name only names can lie. -/
theorem Trail.isName_of_append {front back : List Component} (h : Trail (back ++ front))
    (hname : front.any (·.isName) = true) : ∀ c ∈ back, c.isName = true := by
  induction back with
  | nil => simp
  | cons c back ih =>
      rw [List.cons_append] at h
      generalize htrail : back ++ front = trail at h
      cases h with
      | root => simp_all
      | up => simp_all
      | above =>
          obtain ⟨-, rfl⟩ | ⟨-, rfl⟩ := List.append_eq_singleton_iff.mp htrail
          · cases hname
          · cases hname
      | name text h => exact List.forall_mem_cons.mpr ⟨rfl, ih (htrail ▸ h)⟩

theorem Trail.append_names {trail names : List Component} (h : Trail trail)
    (hnames : ∀ c ∈ names, c.isName = true) : Trail (names ++ trail) := by
  induction names with
  | nil => exact h
  | cons c names ih =>
      rw [List.forall_mem_cons] at hnames
      cases c with
      | name text => exact .name text (ih hnames.2)
      | root => cases hnames.1
      | current => cases hnames.1
      | parent => cases hnames.1

theorem components_absoluteFrom (path base : Path) :
    (path.absoluteFrom base).components = resolveDots (base.join path).components := by
  rw [absoluteFrom, normalize,
    components_ofComponents (wellFormed_resolveDots (wellFormed_components _))]

/-! ## Putting a relative path behind a directory -/

private theorem componentsOf_append_slash {front : List Char} (hfront : front ≠ [])
    (back : List Char) :
    componentsOf (front ++ '/' :: back) =
      componentsOf front ++ (Text.split '/' back).filterMap component? := by
  cases front with
  | nil => contradiction
  | cons c front =>
      have hsplit : Text.split '/' (c :: front ++ '/' :: back) = _ :=
        Text.split_append_cons_sep (c :: front) back
      by_cases hc : c = '/'
      · subst hc
        rw [List.cons_append] at hsplit ⊢
        simp only [componentsOf, hsplit, List.filterMap_append, List.cons_append]
      · have hhead : (c :: front).head? ≠ some '/' := by simpa using hc
        have hhead' : (c :: front ++ '/' :: back).head? ≠ some '/' := by simpa using hc
        cases hpieces : Text.split '/' (c :: front) with
        | nil => exact absurd hpieces (Text.split_ne_nil '/' _)
        | cons first rest =>
            have hpieces' : Text.split '/' (c :: front ++ '/' :: back) =
                first :: (rest ++ Text.split '/' back) := by
              rw [hsplit, hpieces, List.cons_append]
            rw [componentsOf_of_split hhead' hpieces', componentsOf_of_split hhead hpieces,
              List.filterMap_append, List.append_assoc]

/-- Where a dot stands in front, it adds nothing to the way. -/
private theorem foldl_follow_componentsOf {text : List Char} (h : text.head? ≠ some '/')
    (trail : List Component) :
    ((Text.split '/' text).filterMap component?).foldl follow trail =
      (componentsOf text).foldl follow trail := by
  cases hpieces : Text.split '/' text with
  | nil => exact absurd hpieces (Text.split_ne_nil '/' _)
  | cons first rest =>
      rw [componentsOf_of_split h hpieces]
      by_cases hdot : first = ['.']
      · subst hdot
        rfl
      · rw [leading?_of_ne hdot, List.filterMap_cons]
        cases component? first <;> rfl

theorem head?_toList_of_not_isAbsolute {path : Path} (h : path.isAbsolute = false) :
    path.text.toList.head? ≠ some '/' := by
  intro hhead
  rw [isAbsolute] at h
  cases htext : path.text.toList with
  | nil => simp [htext] at hhead
  | cons c rest => simp_all

private theorem componentsOf_append_slash_nil {front : List Char} (hfront : front ≠ []) :
    componentsOf (front ++ ['/']) = componentsOf front := by
  rw [componentsOf_append_slash hfront []]
  exact List.append_nil _

/-- Behind a directory a path has the components of all its pieces. -/
theorem components_join {path base : Path} (h : path.isAbsolute = false)
    (hbase : base.text ≠ "") :
    (base.join path).components =
      base.components ++ (Text.split '/' path.text.toList).filterMap component? := by
  have hne : base.text.toList ≠ [] := by simpa using hbase
  rw [join, if_neg (by simp [h])]
  by_cases hlast : base.text.toList.getLast? = some '/'
  · rw [if_pos (.inr hlast), components, components, String.toList_append]
    obtain ⟨front, hfront⟩ := List.getLast?_eq_some_iff.mp hlast
    rw [hfront, List.append_assoc, List.singleton_append]
    by_cases hroot : front = []
    · rw [hroot, List.nil_append, componentsOf_slash_cons]
      rfl
    · rw [componentsOf_append_slash hroot, componentsOf_append_slash_nil hroot]
  · rw [if_neg (by simp [hbase, hlast]), components, components, String.toList_append,
      String.toList_append, List.append_assoc]
    exact componentsOf_append_slash hne _

/-- Seen from a directory, a relative path goes on where the directory leads. -/
theorem resolveDots_join {path : Path} (h : path.isAbsolute = false) (base : Path) :
    resolveDots (base.join path).components =
      resolveDots (base.components ++ path.components) := by
  by_cases hempty : base.text = ""
  · rw [join, if_neg (by simp [h]), if_pos (.inl hempty), hempty, components, components,
      hempty, String.empty_append]
    rfl
  · rw [components_join h hempty, resolveDots, List.foldl_append,
      foldl_follow_componentsOf (head?_toList_of_not_isAbsolute h), ← List.foldl_append]
    rfl

/-- An absolute path has the root in front and nowhere else. -/
theorem exists_components_of_isAbsolute {path : Path} (h : path.isAbsolute = true) :
    ∃ rest, path.components = .root :: rest ∧ ∀ c ∈ rest, c.Inner := by
  rw [isAbsolute, List.isPrefixOf_iff_prefix] at h
  obtain ⟨text, htext⟩ := h
  have hcomponents : path.components = .root :: (Text.split '/' text).filterMap component? := by
    rw [components, ← htext, List.singleton_append, componentsOf_slash_cons]
  have hwell := wellFormed_components path
  rw [hcomponents] at hwell
  exact ⟨_, hcomponents, hwell.2⟩

theorem not_isAbsolute_of_root_not_mem {path : Path} (h : .root ∉ path.components) :
    path.isAbsolute = false := by
  by_contra habsolute
  obtain ⟨rest, hrest, -⟩ := exists_components_of_isAbsolute (Bool.not_eq_false _ ▸ habsolute)
  exact h (hrest ▸ List.mem_cons_self)

theorem root_not_mem_of_not_isAbsolute {path : Path} (h : path.isAbsolute = false) :
    .root ∉ path.components := by
  have hinner : ∀ piece, component? piece ≠ some .root := by
    intro piece
    unfold component?
    split <;> simp
  have hleading : ∀ piece, leading? piece ≠ some .root := by
    intro piece
    unfold leading?
    split
    · simp
    · exact hinner _
  cases hsplit : Text.split '/' path.text.toList with
  | nil => exact absurd hsplit (Text.split_ne_nil '/' _)
  | cons first rest =>
      rw [components, componentsOf_of_split (head?_toList_of_not_isAbsolute h) hsplit]
      simp [hinner, hleading]

theorem isAbsolute_of_root_mem {path : Path} (h : .root ∈ path.components) :
    path.isAbsolute = true := by
  by_contra hrelative
  exact root_not_mem_of_not_isAbsolute (Bool.not_eq_true _ ▸ hrelative) h

theorem isName_of_append_absoluteFrom {path base : Path} {front back : List Component}
    (h : front ++ back = (path.absoluteFrom base).components)
    (hname : front.any (·.isName) = true) : ∀ c ∈ back, c.isName = true := by
  have htrail := trail_resolveDots (wellFormed_components (base.join path))
  rw [← components_absoluteFrom, ← h, List.reverse_append] at htrail
  simpa using htrail.isName_of_append (by simpa using hname)

theorem Component.Inner.isName {c : Component} (h : c.Inner) (hne : c ≠ .parent) :
    c.isName = true := by
  cases c with
  | root => exact absurd h.1 (by decide)
  | current => exact absurd h.2 (by decide)
  | parent => contradiction
  | name text => rfl

theorem trail_of_isAbsolute {path : Path} (habsolute : path.isAbsolute = true)
    (hclimbs : .parent ∉ path.components) : Trail path.components.reverse := by
  obtain ⟨rest, hcomponents, hinner⟩ := exists_components_of_isAbsolute habsolute
  rw [hcomponents] at hclimbs ⊢
  rw [List.reverse_cons]
  refine Trail.root.append_names fun c hc => ?_
  rw [List.mem_reverse] at hc
  exact (hinner c hc).isName fun heq => hclimbs (List.mem_cons_of_mem _ (heq ▸ hc))

theorem components_absoluteFrom_of_trail {path : Path} (habsolute : path.isAbsolute = true)
    (htrail : Trail path.components.reverse) (directory : Path) :
    (path.absoluteFrom directory).components = path.components := by
  rw [components_absoluteFrom, join, if_pos habsolute, htrail.resolveDots_eq]

/-- From a resolved directory, names lead on from where it leads. -/
theorem components_absoluteFrom_of_trail_of_isName {path directory : Path}
    (htrail : Trail directory.components.reverse)
    (h : ∀ c ∈ path.components, c.isName = true) :
    (path.absoluteFrom directory).components = directory.components ++ path.components := by
  have hroot : .root ∉ path.components := fun hroot => nomatch h _ hroot
  rw [components_absoluteFrom, resolveDots_join (not_isAbsolute_of_root_not_mem hroot)]
  apply Trail.resolveDots_eq
  rw [List.reverse_append]
  exact htrail.append_names (by simpa using h)

end ArtifactAtlas.Path
