import ArtifactAtlas.Proofs.Path.Resolved
import Mathlib.Algebra.Group.Nat.Even

/-!
# Where paths lead

A path leads up from where it starts by some climbs and then down by names.  Resolving
dots keeps the names, but of the climbs only whether their number is odd: two dots that
find no name to take back stay on the way, and the next ones that find none take them
back instead.
-/

namespace ArtifactAtlas.Path

/-- Where components lead: up by so many climbs, then down by the names of a trail, which
has the last name first.  A climb from the root stays at the root. -/
structure Course where
  climbs : Nat
  trail : List String
  deriving DecidableEq, Repr

namespace Course

def start : Course := ⟨0, []⟩

/-- Two dots take the last name back; where no name is left they climb. -/
def step (course : Course) : Component → Course
  | .root => start
  | .current => course
  | .parent =>
      match course.trail with
      | [] => ⟨course.climbs + 1, []⟩
      | _ :: trail => ⟨course.climbs, trail⟩
  | .name text => ⟨course.climbs, text :: course.trail⟩

def run (course : Course) (components : List Component) : Course :=
  components.foldl step course

/-- What resolving dots keeps of a course, the last component first. -/
def kept (course : Course) : List Component :=
  course.trail.map .name ++ if Even course.climbs then [] else [.parent]

/-- The course from a place that a trail leads to from the root. -/
def onto (course : Course) (trail : List String) : Course :=
  ⟨course.climbs - trail.length, course.trail ++ trail.drop course.climbs⟩

theorem even_climbs_of_kept_eq {course : Course} {names : List String}
    (h : course.kept.reverse = names.map .name) : Even course.climbs := by
  by_contra hodd
  have hparent : .parent ∈ course.kept.reverse := by simp [kept, hodd]
  simp [h] at hparent

/-! ## Steps and runs -/

/-- The step: a component changes what is kept as it changes the course. -/
theorem follow_kept {front : List Component} (hfront : front = [] ∨ front = [.root])
    (course : Course) {c : Component} (hc : c ≠ .root) :
    follow (course.kept ++ front) c = (course.step c).kept ++ front := by
  obtain ⟨climbs, trail⟩ := course
  cases c with
  | root => contradiction
  | current => rfl
  | name text => rfl
  | parent =>
      cases trail with
      | cons text trail => rfl
      | nil =>
          -- an odd climb stays as two dots, an even one takes them back
          by_cases heven : Even climbs
          all_goals
            rcases hfront with rfl | rfl
            all_goals simp [kept, step, follow, heven, Nat.even_add_one]

/-- The run: resolving keeps what the course of the components has. -/
theorem foldl_follow_kept {front : List Component} (hfront : front = [] ∨ front = [.root])
    {components : List Component} (hroot : .root ∉ components) (course : Course) :
    components.foldl follow (course.kept ++ front) = (course.run components).kept ++ front := by
  induction components generalizing course with
  | nil => rfl
  | cons c rest ih =>
      rw [List.mem_cons, not_or] at hroot
      rw [List.foldl_cons, follow_kept hfront course (Ne.symm hroot.1), ih hroot.2]
      rfl

theorem step_onto (course : Course) (trail : List String) {c : Component} (hc : c ≠ .root) :
    (course.onto trail).step c = (course.step c).onto trail := by
  obtain ⟨climbs, names⟩ := course
  cases c with
  | root => contradiction
  | current => rfl
  | name text => rfl
  | parent =>
      cases names with
      | cons text names => rfl
      | nil =>
          -- the trail has a name left to take back, or the climb leaves it
          by_cases hroom : climbs < trail.length
          · rw [onto, List.nil_append, step, List.drop_eq_getElem_cons hroom]
            simp [step, onto]
            omega
          · have hdrop : trail.drop climbs = [] := List.drop_eq_nil_of_le (by omega)
            have hdrop' : trail.drop (climbs + 1) = [] := List.drop_eq_nil_of_le (by omega)
            simp [step, onto, hdrop, hdrop']
            omega

theorem run_onto {components : List Component} (hroot : .root ∉ components) (course : Course)
    (trail : List String) :
    (course.onto trail).run components = (course.run components).onto trail := by
  induction components generalizing course with
  | nil => rfl
  | cons c rest ih =>
      rw [List.mem_cons, not_or] at hroot
      rw [run, List.foldl_cons, step_onto course trail (Ne.symm hroot.1)]
      exact ih hroot.2 (course.step c)

theorem run_names (course : Course) (names : List String) :
    course.run (names.map .name) = ⟨course.climbs, names.reverse ++ course.trail⟩ := by
  induction names generalizing course with
  | nil => rfl
  | cons name names ih =>
      rw [List.map_cons, run, List.foldl_cons]
      exact (ih _).trans (by simp [step])

theorem climbs_run_le (course : Course) (components : List Component) :
    (course.run components).climbs ≤ course.climbs + components.count .parent := by
  induction components generalizing course with
  | nil => simp [run]
  | cons c rest ih =>
      have hrest := ih (course.step c)
      obtain ⟨climbs, trail⟩ := course
      rw [run, List.foldl_cons]
      rw [run] at hrest
      cases c with
      | parent =>
          cases trail <;> simp only [step, List.count_cons_self] at hrest ⊢ <;> omega
      | root => simp [step, start] at hrest ⊢; omega
      | current => simpa [step] using hrest
      | name text => simpa [step] using hrest

end Course

/-! ## Courses of paths -/

/-- Where a path leads by its own components. -/
def course (path : Path) : Course :=
  Course.start.run path.components

/-- Where a path leads from a directory; an absolute path leads there from the root. -/
def courseFrom (path directory : Path) : Course :=
  directory.course.run path.components

theorem resolveDots_of_root_not_mem {components : List Component} (h : .root ∉ components) :
    resolveDots components = (Course.start.run components).kept.reverse := by
  have hkept := Course.foldl_follow_kept (.inl rfl) h .start
  rw [List.append_nil, List.append_nil] at hkept
  exact congrArg List.reverse hkept

theorem resolveDots_root_cons {components : List Component} (h : .root ∉ components) :
    resolveDots (.root :: components) =
      .root :: (Course.start.run components).kept.reverse := by
  have hkept := Course.foldl_follow_kept (.inr rfl) h .start
  rw [resolveDots, List.foldl_cons]
  exact (congrArg List.reverse hkept).trans (by simp)

/-- From an absolute directory a path has the root and what its course keeps. -/
theorem components_absoluteFrom_eq_kept {directory : Path}
    (hdirectory : directory.isAbsolute = true) (path : Path) :
    (path.absoluteFrom directory).components =
      .root :: (path.courseFrom directory).kept.reverse := by
  rw [components_absoluteFrom]
  cases hpath : path.isAbsolute with
  | true =>
      obtain ⟨rest, hrest, hinner⟩ := exists_components_of_isAbsolute hpath
      have hroot := root_not_mem_of_inner hinner
      rw [join, if_pos hpath, hrest, resolveDots_root_cons hroot, courseFrom, hrest]
      rfl
  | false =>
      obtain ⟨rest, hrest, hinner⟩ := exists_components_of_isAbsolute hdirectory
      have hnone : .root ∉ rest ++ path.components := by
        simp [root_not_mem_of_inner hinner, root_not_mem_of_not_isAbsolute hpath]
      rw [resolveDots_join hpath, hrest, List.cons_append, resolveDots_root_cons hnone,
        courseFrom, course, hrest, Course.run, List.foldl_append]
      rfl

/-- The place that a path leads to, where climbs at the root stay at the root. -/
def placeFrom (path directory : Path) : List Component :=
  .root :: (path.courseFrom directory).trail.reverse.map .name

/-- How often the path climbs at the root. -/
def climbsAtRoot (path directory : Path) : Nat :=
  (path.courseFrom directory).climbs

/-- Climbs at the root that come in pairs leave no dots behind. -/
theorem components_absoluteFrom_eq_names_iff {directory : Path}
    (hdirectory : directory.isAbsolute = true) {path : Path} {names : List String} :
    (path.absoluteFrom directory).components = .root :: names.map .name ↔
      path.placeFrom directory = .root :: names.map .name ∧
        Even (path.climbsAtRoot directory) := by
  rw [components_absoluteFrom_eq_kept hdirectory, placeFrom, climbsAtRoot, List.cons.injEq,
    List.cons.injEq, and_iff_right rfl, and_iff_right rfl]
  constructor
  · intro hkept
    have heven := Course.even_climbs_of_kept_eq hkept
    exact ⟨by simpa [Course.kept, heven] using hkept, heven⟩
  · rintro ⟨hplace, heven⟩
    simpa [Course.kept, heven] using hplace

/-! ## Resolving the dots of a relative path first -/

theorem components_normalize {path : Path} (h : path.isAbsolute = false) :
    path.normalize.components = path.course.kept.reverse := by
  rw [normalize, components_ofComponents (wellFormed_resolveDots (wellFormed_components path)),
    resolveDots_of_root_not_mem (root_not_mem_of_not_isAbsolute h)]
  rfl

theorem not_isAbsolute_normalize {path : Path} (h : path.isAbsolute = false) :
    path.normalize.isAbsolute = false := by
  apply not_isAbsolute_of_root_not_mem
  rw [components_normalize h, List.mem_reverse, Course.kept]
  split <;> simp

/-- Of two climbs one takes back the other. -/
theorem course_normalize {path : Path} (h : path.isAbsolute = false) :
    path.normalize.course = ⟨path.course.climbs % 2, path.course.trail⟩ := by
  rw [course, components_normalize h, Course.kept, List.reverse_append, ← List.map_reverse,
    Course.run, List.foldl_append]
  refine (Course.run_names _ _).trans ?_
  split
  case isTrue heven => simp [Course.start, Nat.even_iff.mp heven]
  case isFalse hodd => simp [Course.start, Course.step, Nat.not_even_iff.mp hodd]

section

variable {path base : Path} {names : List String}

theorem courseFrom_eq_onto (h : path.isAbsolute = false)
    (hbase : base.components = .root :: names.map .name) :
    path.courseFrom base = path.course.onto names.reverse := by
  have hcourse : base.course = Course.start.onto names.reverse := by
    rw [course, hbase, Course.run, List.foldl_cons]
    refine (Course.run_names _ _).trans ?_
    simp [Course.step, Course.start, Course.onto]
  rw [courseFrom, hcourse, Course.run_onto (root_not_mem_of_not_isAbsolute h)]
  rfl

theorem components_absoluteFrom_eq_take (h : path.isAbsolute = false)
    (hbase : base.components = .root :: names.map .name)
    (hroom : path.course.climbs ≤ names.length) :
    (path.absoluteFrom base).components =
      .root :: (names.take (names.length - path.course.climbs) ++
        path.course.trail.reverse).map .name := by
  have habsolute : base.isAbsolute = true := isAbsolute_of_root_mem (by simp [hbase])
  have hnone : path.course.climbs - names.length = 0 := Nat.sub_eq_zero_of_le hroom
  rw [components_absoluteFrom_eq_kept habsolute, courseFrom_eq_onto h hbase, Course.onto,
    Course.kept]
  simp [hnone, List.drop_reverse]

/--
A relative path leads, seen from a directory of names, down from so many names as its
climbs leave of the directory.  Resolving its dots first leaves it one climb if their
number is odd and none if it is even.  So with enough names to climb it leads to the
same place afterwards exactly if it climbs at most once.
-/
theorem normalize_keeps_place_iff_climbs_at_most_once (hpath : path.isAbsolute = false)
    (hbase : base.components = .root :: names.map .name)
    (hroom : path.components.count .parent ≤ names.length) :
    (path.absoluteFrom base).components =
      .root :: (names.take (names.length - path.course.climbs) ++
        path.course.trail.reverse).map .name ∧
    (path.normalize.absoluteFrom base).components =
      .root :: (names.take (names.length - path.course.climbs % 2) ++
        path.course.trail.reverse).map .name ∧
    (path.normalize.absoluteFrom base = path.absoluteFrom base ↔ path.course.climbs ≤ 1) := by
  have hclimbs : path.course.climbs ≤ names.length := by
    have hcount := Course.climbs_run_le .start path.components
    rw [Course.start, Nat.zero_add] at hcount
    exact hcount.trans hroom
  have hresolved : path.normalize.course.climbs ≤ names.length := by
    rw [course_normalize hpath]
    exact (Nat.mod_le _ 2).trans hclimbs
  have hbefore := components_absoluteFrom_eq_take hpath hbase hclimbs
  have hafter := components_absoluteFrom_eq_take (not_isAbsolute_normalize hpath) hbase hresolved
  rw [course_normalize hpath] at hafter
  refine ⟨hbefore, hafter, fun hsame => ?_, fun honce => ?_⟩
  · have hlength := congrArg (fun path => path.components.length) hsame
    simp only [hbefore, hafter, List.length_cons, List.length_map, List.length_append,
      List.length_take] at hlength
    omega
  · apply absoluteFrom_eq_of_components_eq
    rw [hbefore, hafter, Nat.mod_eq_of_lt (by omega)]

end

/-- A path that goes back and forth and climbs once leads to the same place. -/
theorem normalize_keeps_place_of_winding_path :
    (Path.mk "x/./../../lib/B.sol").isAbsolute = false ∧
    (Path.mk "/proj/contracts").components = .root :: ["proj", "contracts"].map .name ∧
    (Path.mk "x/./../../lib/B.sol").components.count .parent ≤ ["proj", "contracts"].length ∧
    (Path.mk "x/./../../lib/B.sol").course.climbs ≤ 1 ∧
    (Path.mk "x/./../../lib/B.sol").normalize.absoluteFrom ⟨"/proj/contracts"⟩ =
      (Path.mk "x/./../../lib/B.sol").absoluteFrom ⟨"/proj/contracts"⟩ := by
  have hrelative : (Path.mk "x/./../../lib/B.sol").isAbsolute = false := by decide
  have hbase : (Path.mk "/proj/contracts").components =
      .root :: ["proj", "contracts"].map .name := by decide
  have hroom : (Path.mk "x/./../../lib/B.sol").components.count .parent ≤
      ["proj", "contracts"].length := by decide
  have honce : (Path.mk "x/./../../lib/B.sol").course.climbs ≤ 1 := by decide
  obtain ⟨-, -, hiff⟩ := normalize_keeps_place_iff_climbs_at_most_once hrelative hbase hroom
  exact ⟨hrelative, hbase, hroom, honce, hiff.mpr honce⟩

/-- A path that climbs twice is left where it starts. -/
theorem normalize_loses_two_climbs :
    (Path.mk "../../x").isAbsolute = false ∧
    (Path.mk "/a/b").components = .root :: ["a", "b"].map .name ∧
    (Path.mk "../../x").components.count .parent ≤ ["a", "b"].length ∧
    (Path.mk "../../x").normalize = ⟨"x"⟩ ∧
    (Path.mk "../../x").absoluteFrom ⟨"/a/b"⟩ = ⟨"/x"⟩ ∧
    (Path.mk "../../x").normalize.absoluteFrom ⟨"/a/b"⟩ ≠
      (Path.mk "../../x").absoluteFrom ⟨"/a/b"⟩ := by
  decide

end ArtifactAtlas.Path
