import ArtifactAtlas.Json.MapFormat
import ArtifactAtlas.Json.Record

/-!
# Analysis inputs

The sources that a report is read against.  Several inputs, such as those of the
contracts of one project, can be merged into one.
-/

namespace ArtifactAtlas

open Json (FieldFormat Format RecordFormat)

/-- A source that may come without its text. -/
structure InputSource where
  source : Option String
  deriving DecidableEq, Repr

def InputSource.format : Format InputSource :=
  RecordFormat.complete <|
    (RecordFormat.start InputSource.mk)
    |>.field (.defaulted "source" none (.optional .text)) (·.source)

structure AnalysisInput where
  sources : OrderedMap String InputSource
  sourceList : List String
  mainSource : Option String
  deriving DecidableEq

namespace AnalysisInput

def empty : AnalysisInput := ⟨.empty, [], none⟩

def format : Format AnalysisInput :=
  RecordFormat.complete <|
    (RecordFormat.start AnalysisInput.mk)
    |>.field (.defaulted "sources" .empty (.mapping InputSource.format)) (·.sources)
    |>.field ((FieldFormat.defaulted "source_list" [] (.list .text)).orNamed "sourceList")
      (·.sourceList)
    |>.field ((FieldFormat.omittable "main_source" .text).orNamed "mainSource") (·.mainSource)

/-- The text of a source, if the input has it. -/
def sourceText? (input : AnalysisInput) (path : String) : Option String :=
  (input.sources.get? path).bind (·.source)

/-- Adds the sources of a second input; those of the first stay. -/
def extend (input other : AnalysisInput) : AnalysisInput :=
  { input with sources := input.sources.insertNewAll other.sources.toList }

/-- The first input with the sources of all. -/
def merge : List AnalysisInput → AnalysisInput
  | [] => empty
  | input :: others => others.foldl extend input

/-- The input of a document, which is one input or a list of them. -/
def ofDocument? : Json → Option AnalysisInput
  | .array items => (items.mapM format.decode).map merge
  | document => format.decode document

end AnalysisInput

end ArtifactAtlas
