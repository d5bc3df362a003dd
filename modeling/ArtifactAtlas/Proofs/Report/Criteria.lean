import ArtifactAtlas.Proofs.OrderedMap
import ArtifactAtlas.Proofs.Report.SwcId

/-!
# What a filter lets pass

A filter is made of texts and changed by calls, and all that matters in the end is the
severity that was set last and which identifiers have been listed.  So the lists may be
given in any order, in any pieces and in any spelling, and the criteria may be applied
together or one after the other.
-/

namespace ArtifactAtlas

/-! ## Requests -/

/-- A change to a filter. -/
inductive FilterCall where
  | leastSeverity (severity : Severity)
  | blacklist (texts : List String)
  | whitelist (texts : List String)

namespace FilterCall

def run (filter : ReportFilter) : FilterCall → ReportFilter
  | leastSeverity severity => filter.withLeastSeverity severity
  | blacklist texts => filter.withBlacklist texts
  | whitelist texts => filter.withWhitelist texts

def severity? : FilterCall → Option Severity
  | leastSeverity severity => some severity
  | _ => none

def blacklisted : FilterCall → List String
  | blacklist texts => texts
  | _ => []

def whitelisted : FilterCall → List String
  | whitelist texts => texts
  | _ => []

end FilterCall

/-- The texts that a filter is made of and the calls that change it. -/
structure FilterRequest where
  leastSeverity : Option String
  blacklist : List String
  whitelist : List String
  calls : List FilterCall

namespace FilterRequest

def filter? (request : FilterRequest) : Except ReportFilter.UnknownSeverity ReportFilter :=
  (ReportFilter.ofTexts request.leastSeverity request.blacklist request.whitelist).map
    fun filter => request.calls.foldl FilterCall.run filter

/-- The severity that was set last. -/
def lastSeverity (request : FilterRequest) : Option Severity :=
  (request.calls.filterMap (·.severity?)).getLast?.or
    (request.leastSeverity.bind Severity.ofName?)

def blacklisted (request : FilterRequest) : List String :=
  request.blacklist ++ request.calls.flatMap (·.blacklisted)

def whitelisted (request : FilterRequest) : List String :=
  request.whitelist ++ request.calls.flatMap (·.whitelisted)

/-- The issue is severe enough, is not on a blacklist and, where there is a whitelist, is on
one.  An issue without an identifier is on no list. -/
def Passes (request : FilterRequest) (issue : Issue) : Prop :=
  (∀ severity ∈ request.lastSeverity, severity ≤ issue.severity) ∧
  (∀ id ∈ issue.swcId, SwcId.canonical id ∉ SwcId.ofTexts request.blacklisted) ∧
  (SwcId.ofTexts request.whitelisted = [] ∨
    ∃ id ∈ issue.swcId, SwcId.canonical id ∈ SwcId.ofTexts request.whitelisted)

instance (request : FilterRequest) : DecidablePred request.Passes := fun _ =>
  inferInstanceAs (Decidable (_ ∧ _ ∧ _))

/-- A filter for each criterion alone. -/
def criteria (request : FilterRequest) : List ReportFilter :=
  [match request.lastSeverity with
    | none => .keepAll
    | some severity => ReportFilter.keepAll.withLeastSeverity severity,
    ReportFilter.keepAll.withBlacklist request.blacklisted,
    ReportFilter.keepAll.withWhitelist request.whitelisted]

/-! ## The filter of a request -/

theorem foldl_run (filter : ReportFilter) (calls : List FilterCall) :
    calls.foldl FilterCall.run filter =
      { leastSeverity := (calls.filterMap (·.severity?)).getLast?.or filter.leastSeverity
        blacklist := filter.blacklist.insertAll
          ((SwcId.ofTexts (calls.flatMap (·.blacklisted))).map fun id => (id, ()))
        whitelist := filter.whitelist.insertAll
          ((SwcId.ofTexts (calls.flatMap (·.whitelisted))).map fun id => (id, ())) } := by
  induction calls generalizing filter with
  | nil => rfl
  | cons call rest ih =>
      rw [List.foldl_cons, ih]
      cases call with
      | leastSeverity severity =>
          have hlast : ∀ (later : List Severity) (set : Option Severity),
              (severity :: later).getLast?.or set = later.getLast?.or (some severity) := by
            intro later set
            cases hlater : later.getLast? <;> simp [List.getLast?_cons, hlater]
          exact congrArg (ReportFilter.mk · _ _) (hlast _ _).symm
      | blacklist texts =>
          simp [FilterCall.run, FilterCall.severity?, FilterCall.blacklisted,
            FilterCall.whitelisted, ReportFilter.withBlacklist, SwcId.ofTexts_append,
            OrderedMap.insertAll_append]
      | whitelist texts =>
          simp [FilterCall.run, FilterCall.severity?, FilterCall.blacklisted,
            FilterCall.whitelisted, ReportFilter.withWhitelist, SwcId.ofTexts_append,
            OrderedMap.insertAll_append]

/-- Making a filter can only fail for a name that is no severity. -/
theorem filter?_eq (request : FilterRequest) :
    request.filter? = (ReportFilter.ofTexts request.leastSeverity [] []).map fun _ =>
      ⟨request.lastSeverity, .ofList (SwcId.ofTexts request.blacklisted),
        .ofList (SwcId.ofTexts request.whitelisted)⟩ := by
  have hfold : ∀ severity : Option Severity,
      request.calls.foldl FilterCall.run
          ⟨severity, .ofList (SwcId.ofTexts request.blacklist),
            .ofList (SwcId.ofTexts request.whitelist)⟩ =
        ⟨(request.calls.filterMap (·.severity?)).getLast?.or severity,
          .ofList (SwcId.ofTexts request.blacklisted),
          .ofList (SwcId.ofTexts request.whitelisted)⟩ := by
    intro severity
    rw [foldl_run, OrderedSet.insertAll_ofList, OrderedSet.insertAll_ofList,
      ← SwcId.ofTexts_append, ← SwcId.ofTexts_append]
    rfl
  simp only [filter?, ReportFilter.ofTexts, lastSeverity]
  cases request.leastSeverity with
  | none => simp [Except.map, hfold]
  | some text => cases hname : Severity.ofName? text <;> simp [Except.map, hfold, hname]

theorem eq_of_filter?_eq_ok {request : FilterRequest} {filter : ReportFilter}
    (h : request.filter? = .ok filter) :
    filter = ⟨request.lastSeverity, .ofList (SwcId.ofTexts request.blacklisted),
      .ofList (SwcId.ofTexts request.whitelisted)⟩ := by
  rw [filter?_eq] at h
  cases hmade : ReportFilter.ofTexts request.leastSeverity [] [] with
  | error unknown =>
      rw [hmade] at h
      cases h
  | ok made =>
      rw [hmade] at h
      cases h
      rfl

theorem keeps_iff (severity : Option Severity) (blacklist whitelist : List String)
    (issue : Issue) :
    (ReportFilter.mk severity (.ofList blacklist) (.ofList whitelist)).keeps issue = true ↔
      (∀ least ∈ severity, least ≤ issue.severity) ∧
      (∀ id ∈ issue.swcId, SwcId.canonical id ∉ blacklist) ∧
      (whitelist = [] ∨ ∃ id ∈ issue.swcId, SwcId.canonical id ∈ whitelist) := by
  simp only [ReportFilter.keeps]
  cases issue.swcId <;> cases severity <;>
    simp [OrderedSet.contains_ofList, OrderedSet.isEmpty_ofList, and_assoc]

theorem keeps_eq_passes {request : FilterRequest} {filter : ReportFilter}
    (h : request.filter? = .ok filter) (issue : Issue) :
    filter.keeps issue = decide (request.Passes issue) := by
  rw [Bool.eq_iff_iff, decide_eq_true_iff, eq_of_filter?_eq_ok h, keeps_iff]
  rfl

theorem criteria_eq (request : FilterRequest) :
    request.criteria =
      [⟨request.lastSeverity, .ofList [], .ofList []⟩,
        ⟨none, .ofList (SwcId.ofTexts request.blacklisted), .ofList []⟩,
        ⟨none, .ofList [], .ofList (SwcId.ofTexts request.whitelisted)⟩] := by
  rw [criteria]
  cases request.lastSeverity <;> rfl

theorem all_criteria_keeps (request : FilterRequest) (issue : Issue) :
    request.criteria.all (·.keeps issue) = decide (request.Passes issue) := by
  rw [Bool.eq_iff_iff, decide_eq_true_iff, criteria_eq]
  simp [keeps_iff, Passes]

end FilterRequest

/-! ## Applying filters -/

/-- The issues of all reports, in order. -/
def IssueReport.allIssues (reports : List IssueReport) : List Issue :=
  reports.flatMap (·.issues)

/-- The reports with those of their issues that pass. -/
def IssueReport.keepWhere (passes : Issue → Bool) (reports : List IssueReport) :
    List IssueReport :=
  reports.map fun report => { report with issues := report.issues.filter passes }

namespace ReportFilter

/-- Applies filters one after the other, and counts all issues that go. -/
def applyEach : List ReportFilter → List IssueReport → Nat × List IssueReport
  | [], reports => (0, reports)
  | filter :: rest, reports =>
      let (removed, kept) := filter.apply reports
      let (more, last) := applyEach rest kept
      (removed + more, last)

end ReportFilter

namespace IssueReport

theorem allIssues_keepWhere (passes : Issue → Bool) (reports : List IssueReport) :
    allIssues (keepWhere passes reports) = (allIssues reports).filter passes := by
  rw [allIssues, allIssues, keepWhere, List.flatMap_map, List.filter_flatMap]

theorem keepWhere_keepWhere (first second : Issue → Bool) (reports : List IssueReport) :
    keepWhere second (keepWhere first reports) =
      keepWhere (fun issue => first issue && second issue) reports := by
  simp [keepWhere, List.filter_filter, Bool.and_comm]

theorem keepWhere_true (reports : List IssueReport) :
    keepWhere (fun _ => true) reports = reports := by
  simp [keepWhere]

end IssueReport

namespace ReportFilter

open IssueReport (allIssues keepWhere allIssues_keepWhere keepWhere_keepWhere keepWhere_true)

theorem apply_eq (filter : ReportFilter) (reports : List IssueReport) :
    filter.apply reports =
      ((allIssues reports).countP (fun issue => !filter.keeps issue),
        keepWhere filter.keeps reports) := by
  have hkept : (allIssues (keepWhere filter.keeps reports)).length =
      (allIssues reports).countP filter.keeps := by
    rw [allIssues_keepWhere, List.countP_eq_length_filter]
  have htotal := List.length_eq_countP_add_countP filter.keeps (l := allIssues reports)
  have hremoved : (allIssues reports).length - (allIssues (keepWhere filter.keeps reports)).length =
      (allIssues reports).countP (fun issue => !filter.keeps issue) := by
    simp only [Bool.not_eq_true, Bool.decide_eq_false] at htotal
    omega
  exact congrArg (·, keepWhere filter.keeps reports) hremoved

/-- What does not pass both goes at the first or, having passed it, at the second. -/
theorem countP_not_and (first second : Issue → Bool) (issues : List Issue) :
    issues.countP (fun issue => !(first issue && second issue)) =
      issues.countP (fun issue => !first issue) +
        (issues.filter first).countP (fun issue => !second issue) := by
  induction issues with
  | nil => rfl
  | cons issue rest ih =>
      cases hfirst : first issue <;> cases hsecond : second issue <;>
        simp [hfirst, hsecond] at ih ⊢ <;> omega

theorem applyEach_eq (filters : List ReportFilter) (reports : List IssueReport) :
    applyEach filters reports =
      ((allIssues reports).countP (fun issue => !filters.all (·.keeps issue)),
        keepWhere (fun issue => filters.all (·.keeps issue)) reports) := by
  induction filters generalizing reports with
  | nil => simp [applyEach, keepWhere_true]
  | cons filter rest ih =>
      simp only [applyEach, apply_eq, ih, allIssues_keepWhere, keepWhere_keepWhere,
        List.all_cons, countP_not_and]

theorem applyEach_eq_of_perm {filters others : List ReportFilter} (h : filters.Perm others)
    (reports : List IssueReport) : applyEach filters reports = applyEach others reports := by
  simp only [applyEach_eq, h.all_eq]

theorem apply_apply (filter : ReportFilter) (reports : List IssueReport) :
    filter.apply (filter.apply reports).2 = (0, (filter.apply reports).2) := by
  simp [apply_eq, allIssues_keepWhere, keepWhere_keepWhere, List.countP_filter]

end ReportFilter

namespace FilterRequest

/-! ## Other requests for the same filter -/

/-- One change to a request that does not touch what it asks for: a call on a list changes
places with its neighbour, or a list of texts is written in another way. -/
inductive Step : FilterRequest → FilterRequest → Prop
  | swapped (request : FilterRequest) (front back : List FilterCall) {call next : FilterCall}
      (h : call.severity? = none ∨ next.severity? = none) :
      Step { request with calls := front ++ call :: next :: back }
        { request with calls := front ++ next :: call :: back }
  | blacklist (request : FilterRequest) {texts : List String}
      (h : SwcId.ItemStep request.blacklist texts) :
      Step request { request with blacklist := texts }
  | whitelist (request : FilterRequest) {texts : List String}
      (h : SwcId.ItemStep request.whitelist texts) :
      Step request { request with whitelist := texts }
  | blacklistCall (request : FilterRequest) (front back : List FilterCall)
      {texts others : List String} (h : SwcId.ItemStep texts others) :
      Step { request with calls := front ++ .blacklist texts :: back }
        { request with calls := front ++ .blacklist others :: back }
  | whitelistCall (request : FilterRequest) (front back : List FilterCall)
      {texts others : List String} (h : SwcId.ItemStep texts others) :
      Step { request with calls := front ++ .whitelist texts :: back }
        { request with calls := front ++ .whitelist others :: back }

/-- Two requests that such changes lead from one to the other, in either direction. -/
def SameFilter : FilterRequest → FilterRequest → Prop :=
  Relation.EqvGen Step

theorem filter?_congr {request other : FilterRequest}
    (hname : request.leastSeverity = other.leastSeverity)
    (hseverity : request.calls.filterMap (·.severity?) = other.calls.filterMap (·.severity?))
    (hblacklist : ∀ id, id ∈ SwcId.ofTexts request.blacklisted ↔
      id ∈ SwcId.ofTexts other.blacklisted)
    (hwhitelist : ∀ id, id ∈ SwcId.ofTexts request.whitelisted ↔
      id ∈ SwcId.ofTexts other.whitelisted) : request.filter? = other.filter? := by
  rw [filter?_eq, filter?_eq, lastSeverity, lastSeverity, hname, hseverity,
    OrderedSet.ofList_congr hblacklist, OrderedSet.ofList_congr hwhitelist]

theorem Step.filter?_eq {request other : FilterRequest} (h : Step request other) :
    request.filter? = other.filter? := by
  cases h with
  | swapped request front back h =>
      refine filter?_congr ?_ ?_ ?_ ?_
      · rfl
      · rcases h with h | h <;> simp [List.filterMap_cons, h]
      · simp [blacklisted, SwcId.ofTexts_append, or_left_comm]
      · simp [whitelisted, SwcId.ofTexts_append, or_left_comm]
  | blacklist request h =>
      refine filter?_congr ?_ ?_ ?_ ?_
      · rfl
      · rfl
      · simp [blacklisted, SwcId.ofTexts_append, h.ofTexts_eq]
      · exact fun _ => Iff.rfl
  | whitelist request h =>
      refine filter?_congr ?_ ?_ ?_ ?_
      · rfl
      · rfl
      · exact fun _ => Iff.rfl
      · simp [whitelisted, SwcId.ofTexts_append, h.ofTexts_eq]
  | blacklistCall request front back h =>
      refine filter?_congr ?_ ?_ ?_ ?_
      · rfl
      · simp [FilterCall.severity?]
      · simp [blacklisted, FilterCall.blacklisted, SwcId.ofTexts_append, h.ofTexts_eq]
      · simp [whitelisted, FilterCall.whitelisted]
  | whitelistCall request front back h =>
      refine filter?_congr ?_ ?_ ?_ ?_
      · rfl
      · simp [FilterCall.severity?]
      · simp [blacklisted, FilterCall.blacklisted]
      · simp [whitelisted, FilterCall.whitelisted, SwcId.ofTexts_append, h.ofTexts_eq]

theorem SameFilter.filter?_eq {request other : FilterRequest} (h : SameFilter request other) :
    request.filter? = other.filter? := by
  induction h with
  | rel _ _ h => exact h.filter?_eq
  | refl => rfl
  | symm _ _ _ ih => exact ih.symm
  | trans _ _ _ _ _ first second => exact first.trans second

end FilterRequest

/-! ## Issues in another spelling -/

/-- The issue as it is, or with another spelling of its identifier. -/
inductive Issue.Respelled : Issue → Issue → Prop
  | unchanged (issue : Issue) : Respelled issue issue
  | spelled (issue : Issue) {text other : String} (hid : issue.swcId = some text)
      (h : SwcId.Same text other) : Respelled issue { issue with swcId := some other }

inductive IssueReport.Respelled : IssueReport → IssueReport → Prop
  | issues (report : IssueReport) {issues : List Issue}
      (h : List.Forall₂ Issue.Respelled report.issues issues) :
      Respelled report { report with issues }

namespace ReportFilter

open IssueReport (allIssues keepWhere)

theorem keeps_respelled (filter : ReportFilter) {issue other : Issue}
    (h : Issue.Respelled issue other) : filter.keeps issue = filter.keeps other := by
  cases h with
  | unchanged => rfl
  | spelled hid h => simp only [keeps, hid, Option.map_some, h.canonical_eq]

theorem forall₂_allIssues {reports others : List IssueReport}
    (h : List.Forall₂ IssueReport.Respelled reports others) :
    List.Forall₂ Issue.Respelled (allIssues reports) (allIssues others) := by
  refine List.rel_flatMap h fun report other hrespelled => ?_
  cases hrespelled with
  | issues hissues => exact hissues

theorem countP_eq_of_forall₂ {passes : Issue → Bool}
    (hpasses : ∀ issue other, Issue.Respelled issue other → passes issue = passes other)
    {issues others : List Issue} (h : List.Forall₂ Issue.Respelled issues others) :
    issues.countP passes = others.countP passes := by
  induction h with
  | nil => rfl
  | cons head _ ih => simp only [List.countP_cons, ih, hpasses _ _ head]

theorem apply_respelled (filter : ReportFilter) {reports others : List IssueReport}
    (h : List.Forall₂ IssueReport.Respelled reports others) :
    (filter.apply reports).1 = (filter.apply others).1 ∧
    List.Forall₂ IssueReport.Respelled (filter.apply reports).2 (filter.apply others).2 := by
  simp only [apply_eq]
  constructor
  · refine countP_eq_of_forall₂ (fun issue other hrespelled => ?_) (forall₂_allIssues h)
    rw [filter.keeps_respelled hrespelled]
  · refine List.rel_map (fun report other hrespelled => ?_) h
    cases hrespelled with
    | issues hissues =>
        refine .issues { report with issues := report.issues.filter filter.keeps } ?_
        refine List.rel_filter (fun issue other hspelled => ?_) hissues
        simp only [filter.keeps_respelled hspelled]

end ReportFilter

/-! ## Main result -/

/--
A filter keeps the issues that pass what was asked for, in order, and counts the others;
a second time nothing goes.  The three criteria alone, one after the other in any order,
do the same.  Where the lists are called in another order, cut into other pieces or
spelled in another way the filter is the same one, and it does the same to issues whose
identifiers are spelled in another way.
-/
theorem FilterRequest.filter_keeps_what_passes (request : FilterRequest) {filter : ReportFilter}
    (h : request.filter? = .ok filter) (reports : List IssueReport) :
    filter.apply reports =
      ((IssueReport.allIssues reports).countP (fun issue => !decide (request.Passes issue)),
        IssueReport.keepWhere (fun issue => decide (request.Passes issue)) reports) ∧
    filter.apply (filter.apply reports).2 = (0, (filter.apply reports).2) ∧
    (∀ order, order.Perm request.criteria →
      ReportFilter.applyEach order reports = filter.apply reports) ∧
    (∀ other, SameFilter request other → other.filter? = .ok filter) ∧
    (∀ others, List.Forall₂ IssueReport.Respelled reports others →
      (filter.apply reports).1 = (filter.apply others).1 ∧
      List.Forall₂ IssueReport.Respelled (filter.apply reports).2 (filter.apply others).2) ∧
    (∀ id, SwcId.canonical (SwcId.canonical id) = SwcId.canonical id) := by
  have hkeeps : filter.keeps = fun issue => decide (request.Passes issue) :=
    funext (keeps_eq_passes h)
  have happly := filter.apply_eq reports
  rw [hkeeps] at happly
  refine ⟨happly, filter.apply_apply reports, ?_, ?_, fun _ => filter.apply_respelled,
    SwcId.canonical_canonical⟩
  · intro order horder
    rw [ReportFilter.applyEach_eq_of_perm horder, ReportFilter.applyEach_eq, happly]
    simp only [all_criteria_keeps]
  · intro other hsame
    rw [← hsame.filter?_eq, h]

namespace FilterRequest

/-- Lists in many spellings, with a severity that is set twice. -/
def mixedSpellings : FilterRequest where
  leastSeverity := some "LOW"
  blacklist := ["103, swc-104"]
  whitelist := []
  calls := [.whitelist [" Swc-101,103 ", ""], .leastSeverity .medium, .whitelist ["110"]]

def issueOf (id : Option String) (severity : Severity) : Issue :=
  ⟨id, none, .blank, severity, [], .null⟩

def reportOf (issues : List Issue) : IssueReport :=
  ⟨issues, none, none, [], .null⟩

/-- One issue passes; the others are on the blacklist, not severe enough or without an
identifier. -/
def mixedReports : List IssueReport :=
  [reportOf [issueOf (some "swc-110") .high, issueOf (some "103") .high,
    issueOf (some "SWC-101") .low, issueOf none .high]]

theorem mixedSpellings_keeps_one :
    ∃ filter, mixedSpellings.filter? = .ok filter ∧
      (filter.apply mixedReports).1 = 3 ∧
      (IssueReport.allIssues (filter.apply mixedReports).2).map (·.swcId) =
        [some "swc-110"] := by
  have hmade : mixedSpellings.filter? = .ok ⟨some .medium, .ofList ["SWC-103", "SWC-104"],
      .ofList ["SWC-101", "SWC-103", "SWC-110"]⟩ := by decide +kernel
  obtain ⟨happly, -⟩ := filter_keeps_what_passes mixedSpellings hmade mixedReports
  refine ⟨_, hmade, ?_, ?_⟩
  · rw [happly]
    decide +kernel
  · rw [happly]
    decide +kernel

/-- A number without digits: with a label it is an identifier, but the bare number is an
item that holds none, so a whitelist of it alone lets everything pass. -/
theorem bare_empty_number_is_not_listed :
    SwcId.Spells [] "SWC-" ∧ SwcId.Spells [] "" ∧
    ((ReportFilter.keepAll.withWhitelist ["SWC-"]).apply
      [reportOf [issueOf (some "SWC-110") .high]]).1 = 1 ∧
    ((ReportFilter.keepAll.withWhitelist [""]).apply
      [reportOf [issueOf (some "SWC-110") .high]]).1 = 0 := by
  refine ⟨?_, ?_, ?_, ?_⟩
  · exact ⟨by simp, [], "SWC-".toList, [], by decide, by simp, by simp, .inr (by decide)⟩
  · exact ⟨by simp, [], [], [], by decide, by simp, by simp, .inl rfl⟩
  · decide +kernel
  · decide +kernel

end FilterRequest

end ArtifactAtlas
