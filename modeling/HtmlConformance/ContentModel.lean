import HtmlConformance.FlagSet

namespace HtmlConformance

/-! The structural category of an element: a set of flags. The checks ask only whether
an element is image-like and whether it belongs to a vendor; the rest describes the
element to whoever builds or prints trees. -/

inductive ContentFlag where
  | empty
  | html
  | head
  | block
  | inline
  | list
  | definitionList
  | table
  | rowGroup
  | row
  | field
  | object
  | param
  | frames
  | heading
  | optionalEnd
  /-- Image-like: `align` places the box instead of the text. -/
  | image
  | mixed
  | optionalStart
  | obsolete
  | proprietary
  deriving DecidableEq

namespace ContentFlag

def all : List ContentFlag :=
  [empty, html, head, block, inline, list, definitionList, table, rowGroup, row, field,
    object, param, frames, heading, optionalEnd, image, mixed, optionalStart, obsolete,
    proprietary]

instance : Enumerated ContentFlag where
  values := all
  mem_values flag := by cases flag <;> decide
  nodup_values := by decide

end ContentFlag

abbrev ContentModel := FlagSet ContentFlag

namespace ContentModel

def has (model flags : ContentModel) : Bool := flags.isSubset model

def describe (model : ContentModel) : String :=
  "ContentModel(0x" ++ String.ofList (Nat.toDigits 16 model.toNat) ++ ")"

end ContentModel

end HtmlConformance
