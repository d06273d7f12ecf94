import HtmlConformance.Attribute
import HtmlConformance.FlagSet

namespace HtmlConformance

/-! What a pass reports about a document. Nothing that is wrong with a document stops
the pass; each finding becomes a diagnostic. -/

inductive Severity where
  | info
  | warning
  | error
  deriving DecidableEq

namespace Severity

def name : Severity → String
  | info => "Info"
  | warning => "Warning"
  | error => "Error"

def rank : Severity → Nat
  | info => 0
  | warning => 1
  | error => 2

instance : Ord Severity := ⟨fun left right => compare left.rank right.rank⟩

end Severity

inductive DiagnosticKind where
  | missingAttributeValue
  | missingAttribute
  | badAttributeValue
  | proprietaryAttributeValue
  | unknownAttribute
  | repeatedAttribute
  | xmlAttributeMisuse
  | missingImagemap
  | missingSummary
  | missingImageAlt
  | missingLinkAlt
  deriving DecidableEq

namespace DiagnosticKind

def all : List DiagnosticKind :=
  [missingAttributeValue, missingAttribute, badAttributeValue, proprietaryAttributeValue,
    unknownAttribute, repeatedAttribute, xmlAttributeMisuse, missingImagemap, missingSummary,
    missingImageAlt, missingLinkAlt]

instance : Enumerated DiagnosticKind where
  values := all
  mem_values kind := by cases kind <;> decide
  nodup_values := by decide

def name : DiagnosticKind → String
  | missingAttributeValue => "MissingAttributeValue"
  | missingAttribute => "MissingAttribute"
  | badAttributeValue => "BadAttributeValue"
  | proprietaryAttributeValue => "ProprietaryAttributeValue"
  | unknownAttribute => "UnknownAttribute"
  | repeatedAttribute => "RepeatedAttribute"
  | xmlAttributeMisuse => "XmlAttributeMisuse"
  | missingImagemap => "MissingImagemap"
  | missingSummary => "MissingSummary"
  | missingImageAlt => "MissingImageAlt"
  | missingLinkAlt => "MissingLinkAlt"

def severity : DiagnosticKind → Severity
  | badAttributeValue | missingAttributeValue | xmlAttributeMisuse => .error
  | missingAttribute | proprietaryAttributeValue | unknownAttribute | repeatedAttribute
  | missingImagemap => .warning
  | missingSummary | missingImageAlt | missingLinkAlt => .info

end DiagnosticKind

/-- One report: its kind, the tag of the element as written, and the name and the value
of the attribute where one is concerned. -/
structure Diagnostic where
  kind : DiagnosticKind
  element : String
  attributeName : Option String := none
  value : Option String := none
  deriving DecidableEq

namespace Diagnostic

def onElement (kind : DiagnosticKind) (element : String) : Diagnostic := { kind, element }

/-- A diagnostic about an attribute that is not there to point at. -/
def onName (kind : DiagnosticKind) (element name : String) : Diagnostic :=
  { kind, element, attributeName := some name }

def onAttribute (kind : DiagnosticKind) (element : String) (attr : Attribute) :
    Diagnostic :=
  { kind, element, attributeName := some attr.name, value := attr.value }

def severity (diagnostic : Diagnostic) : Severity := diagnostic.kind.severity

def text (diagnostic : Diagnostic) : String :=
  let tag := "<" ++ diagnostic.element ++ ">"
  let name := "\"" ++ diagnostic.attributeName.getD "" ++ "\""
  let value := "\"" ++ diagnostic.value.getD "" ++ "\""
  match diagnostic.kind with
  | .missingAttributeValue => tag ++ " attribute " ++ name ++ " lacks value"
  | .missingAttribute => tag ++ " lacks " ++ name ++ " attribute"
  | .badAttributeValue => tag ++ " attribute " ++ name ++ " has invalid value " ++ value
  | .proprietaryAttributeValue =>
      if diagnostic.value.isSome then
        tag ++ " proprietary attribute value " ++ name ++ "=" ++ value
      else
        tag ++ " proprietary attribute " ++ name
  | .unknownAttribute => tag ++ " unknown attribute " ++ name
  | .repeatedAttribute => tag ++ " repeated attribute " ++ name
  | .xmlAttributeMisuse => tag ++ " has XML attribute " ++ name ++ " outside XML mode"
  | .missingImagemap => tag ++ " should use client-side image map"
  | .missingSummary =>
      "The table summary attribute should be used to describe the table " ++
        "structure for non-visual browsers."
  | .missingImageAlt =>
      "The alt attribute should be used to give a short description of an " ++
        "image; longer descriptions should be given with the longdesc attribute."
  | .missingLinkAlt =>
      "The alt attribute should be used to give a short description of each " ++
        "area of a client-side image map."

end Diagnostic

end HtmlConformance
