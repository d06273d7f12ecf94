import HtmlConformance.Json.Value
import HtmlConformance.Text.Quoted

namespace HtmlConformance.Json

/-! Faults of JSON that is well formed and does not have the shape that is wanted. -/

inductive Found where
  | null
  | bool (value : Bool)
  | number (value : Number)
  | text (value : String)
  | sequence
  | map
  deriving DecidableEq

namespace Found

def describe : Found → String
  | null => "null"
  | bool value => "boolean `" ++ toString value ++ "`"
  | number (.integer value) => "integer `" ++ toString value ++ "`"
  | number value => "floating point `" ++ value.text ++ "`"
  | text value => "string " ++ Text.quoted value
  | sequence => "sequence"
  | map => "map"

end Found

def Value.found : Value → Found
  | null => .null
  | bool value => .bool value
  | number value => .number value
  | text value => .text value
  | array _ => .sequence
  | object _ => .map

inductive ShapeError where
  | wrongType (found : Found) (expected : String)
  | wrongValue (found : Found) (expected : String)
  | wrongLength (length : Nat) (expected : String)
  | unknownName (name : String) (known : List String)
  | missingField (name : String)
  | repeatedField (name : String)
  deriving DecidableEq

namespace ShapeError

def message : ShapeError → String
  | wrongType found expected =>
      "invalid type: " ++ found.describe ++ ", expected " ++ expected
  | wrongValue found expected =>
      "invalid value: " ++ found.describe ++ ", expected " ++ expected
  | wrongLength length expected =>
      "invalid length " ++ toString length ++ ", expected " ++ expected
  | unknownName name known =>
      "unknown variant `" ++ name ++ "`, expected one of " ++
        ", ".intercalate (known.map fun candidate => "`" ++ candidate ++ "`")
  | missingField name => "missing field `" ++ name ++ "`"
  | repeatedField name => "duplicate field `" ++ name ++ "`"

end ShapeError

inductive Fault where
  | truncated
  | malformed
  /-- The text is JSON, as far as it was read, of another shape than wanted. -/
  | shape (error : ShapeError)
  deriving DecidableEq

end HtmlConformance.Json
