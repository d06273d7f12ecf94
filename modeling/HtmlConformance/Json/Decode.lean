import HtmlConformance.Json.Shape

namespace HtmlConformance.Json.Decode

/-! From values to what they stand for. A record is read member by member in the order of
the text; a record may also be written as an array of its fields in their order. -/

variable {α : Type}

def text : Value → Except ShapeError String
  | .text content => .ok content
  | other => .error (.wrongType other.found "a string")

def char : Value → Except ShapeError Char
  | .text content =>
      match content.toList with
      | [only] => .ok only
      | _ => .error (.wrongValue (.text content) "a character")
  | other => .error (.wrongType other.found "a character")

def optional (decode : Value → Except ShapeError α) : Value → Except ShapeError (Option α)
  | .null => .ok none
  | other => some <$> decode other

def sequence (decode : Value → Except ShapeError α) : Value → Except ShapeError (List α)
  | .array items => items.mapM decode
  | other => .error (.wrongType other.found "a sequence")

/-! ## Records as objects -/

def once (name : String) (earlier : Option α) (decoded : Except ShapeError α) :
    Except ShapeError (Option α) :=
  if earlier.isSome then .error (.repeatedField name) else some <$> decoded

def required (name : String) : Option α → Except ShapeError α
  | some found => .ok found
  | none => .error (.missingField name)

/-! ## Records as arrays -/

/-- The item of an array that stands for a field, or else what its absence means. -/
def item (items : List Value) (index : Nat) (decode : Value → Except ShapeError α)
    (absent : Except ShapeError α) : Except ShapeError α :=
  match items[index]? with
  | some found => decode found
  | none => absent

def atMost (count : Nat) (items : List Value) (expected : String) :
    Except ShapeError Unit :=
  if count < items.length then .error (.wrongLength items.length expected) else .ok ()

end HtmlConformance.Json.Decode
