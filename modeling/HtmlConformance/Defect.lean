import HtmlConformance.FlagSet

namespace HtmlConformance

/-! Accessibility shortfalls of a document. They are independent of the versions it can
claim, and a pass over a document only ever adds to them. -/

inductive Defect where
  | missingSummary
  | missingImageAlt
  | missingImageMap
  | missingLinkAlt
  deriving DecidableEq

namespace Defect

/-- Every shortfall, in the order in which a set lists them. -/
def all : List Defect := [missingSummary, missingImageAlt, missingImageMap, missingLinkAlt]

instance : Enumerated Defect where
  values := all
  mem_values defect := by cases defect <;> decide
  nodup_values := by decide

def name : Defect → String
  | missingSummary => "MISSING_SUMMARY"
  | missingImageAlt => "MISSING_IMAGE_ALT"
  | missingImageMap => "MISSING_IMAGE_MAP"
  | missingLinkAlt => "MISSING_LINK_ALT"

end Defect

abbrev DefectSet := FlagSet Defect

namespace DefectSet

def describe (defects : DefectSet) : String :=
  let names := defects.toList.map fun defect => "\"" ++ defect.name ++ "\""
  "\x7b" ++ ", ".intercalate names ++ "\x7d"

end DefectSet

end HtmlConformance
