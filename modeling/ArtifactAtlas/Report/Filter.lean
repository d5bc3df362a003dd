import ArtifactAtlas.OrderedMap
import ArtifactAtlas.Report.Issue
import ArtifactAtlas.Text.Split

/-!
# Report filters

Which issues to keep, by severity and by identifier.  Identifiers are compared in
one spelling, so that `SWC-110`, `swc-110` and `110` mean the same.
-/

namespace ArtifactAtlas

/-! ## Identifiers -/

namespace SwcId

/-- The text without an `SWC-` at the front, in whatever case. -/
def dropLabel : List Char → List Char
  | a :: b :: c :: d :: rest =>
      if [a, b, c, d].map Char.toLower = ['s', 'w', 'c', '-'] then rest else a :: b :: c :: d :: rest
  | text => text

/-- The usual spelling of an identifier. -/
def canonical (id : String) : String :=
  "SWC-" ++ String.ofList (Text.trim (dropLabel (Text.trim id.toList)))

/-- The identifiers in texts that may hold several, separated by commas. -/
def ofTexts (texts : List String) : List String :=
  let pieces := texts.flatMap (Text.splitString ',')
  (pieces.filter fun piece => Text.trim piece.toList ≠ []).map canonical

end SwcId

/-! ## Filters -/

structure ReportFilter where
  leastSeverity : Option Severity
  /-- Issues with these identifiers are dropped. -/
  blacklist : OrderedSet String
  /-- Unless there are none, only issues with these identifiers are kept. -/
  whitelist : OrderedSet String
  deriving DecidableEq

namespace ReportFilter

def keepAll : ReportFilter := ⟨none, .empty, .empty⟩

/-- Why a filter cannot be made: no severity has that name. -/
structure UnknownSeverity where
  text : String
  deriving DecidableEq, Repr

/-- The filter that some texts ask for. -/
def ofTexts (leastSeverity : Option String) (blacklist whitelist : List String) :
    Except UnknownSeverity ReportFilter :=
  let filter (severity : Option Severity) : ReportFilter :=
    ⟨severity, .ofList (SwcId.ofTexts blacklist), .ofList (SwcId.ofTexts whitelist)⟩
  match leastSeverity with
  | none => .ok (filter none)
  | some text =>
      match Severity.ofName? text with
      | some severity => .ok (filter (some severity))
      | none => .error ⟨text⟩

def withLeastSeverity (filter : ReportFilter) (severity : Severity) : ReportFilter :=
  { filter with leastSeverity := some severity }

def withBlacklist (filter : ReportFilter) (texts : List String) : ReportFilter :=
  { filter with
    blacklist := filter.blacklist.insertAll ((SwcId.ofTexts texts).map fun id => (id, ())) }

def withWhitelist (filter : ReportFilter) (texts : List String) : ReportFilter :=
  { filter with
    whitelist := filter.whitelist.insertAll ((SwcId.ofTexts texts).map fun id => (id, ())) }

def isEmpty (filter : ReportFilter) : Bool :=
  filter.leastSeverity.isNone && filter.blacklist.isEmpty && filter.whitelist.isEmpty

/-- Whether an issue is severe enough, not dropped by its identifier, and kept by it where
only some are.  An issue without an identifier has nothing to be dropped or kept by. -/
def keeps (filter : ReportFilter) (issue : Issue) : Bool :=
  let id := issue.swcId.map SwcId.canonical
  filter.leastSeverity.all (· ≤ issue.severity) &&
    !id.any filter.blacklist.contains &&
    (filter.whitelist.isEmpty || id.any filter.whitelist.contains)

def keepIn (filter : ReportFilter) (report : IssueReport) : IssueReport :=
  { report with issues := report.issues.filter filter.keeps }

/-- The number of issues that are not kept, and the reports without them. -/
def apply (filter : ReportFilter) (reports : List IssueReport) : Nat × List IssueReport :=
  let count (reports : List IssueReport) : Nat := (reports.flatMap (·.issues)).length
  let kept := reports.map filter.keepIn
  (count reports - count kept, kept)

end ReportFilter

end ArtifactAtlas
