import HtmlConformance.State

namespace HtmlConformance

/-! What a finished pass concluded about a document. -/

structure Report where
  versions : VersionSet
  defects : DefectSet
  isXhtml : Bool
  deriving DecidableEq

namespace Report

def ofState (state : State) : Report where
  versions := state.versions
  defects := state.defects
  isXhtml := state.isXhtml

def claimable (report : Report) : List Version := report.versions.toList

def claimableTitles (report : Report) : List String := report.claimable.map Version.title

def preference : List Version :=
  [.html20, .html32, .html40Strict, .html40Loose, .frameset, .xhtml11]

/-- The version that the document looks like: XHTML where it says so and still can, else
the oldest standard version left. -/
def likely? (report : Report) : Option Version :=
  if report.isXhtml && report.versions.permits .xhtml11 then
    some .xhtml11
  else
    preference.find? report.versions.permits

/-- The note on a defect, and the element it is put down to. A missing image map needs
none, because it is reported where it is met. -/
def notes : List (Defect × DiagnosticKind × String) :=
  [(.missingSummary, .missingSummary, "table"),
    (.missingImageAlt, .missingImageAlt, "img"),
    (.missingLinkAlt, .missingLinkAlt, "area")]

def diagnostics (report : Report) : List Diagnostic :=
  (notes.filter fun note => report.defects.contains note.1).map fun note =>
    .onElement note.2.1 note.2.2

end Report

end HtmlConformance
