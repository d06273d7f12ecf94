import HtmlConformance.Attribute
import HtmlConformance.Json.Decode

namespace HtmlConformance

/-! Attributes in document files. -/

open Json

namespace FragmentLanguage

def require (name : String) : Except ShapeError FragmentLanguage :=
  match ofName? name with
  | some language => .ok language
  | none => .error (.unknownName name (all.map FragmentLanguage.name))

/-- A language by its name, or as an object whose one key is the name and whose value is
empty. -/
def ofValue : Value → Except ShapeError FragmentLanguage
  | .text name => require name
  | .object [(name, content)] => do
      let language ← require name
      match content with
      | .null | .object [] => return language
      | other => .error (.wrongType other.found "unit")
  | .object _ => .error (.wrongValue .map "map with a single key")
  | other => .error (.wrongType other.found "string or map")

end FragmentLanguage

namespace Fragment

structure Draft where
  language : Option FragmentLanguage := none
  source : Option String := none

def Draft.take (draft : Draft) (key : String) (content : Value) :
    Except ShapeError Draft := do
  if key == "language" then
    return { draft with
      language := ← Decode.once key draft.language (FragmentLanguage.ofValue content) }
  else if key == "source" then
    return { draft with source := ← Decode.once key draft.source (Decode.text content) }
  else
    return draft

def Draft.finish (draft : Draft) : Except ShapeError Fragment := do
  let language ← Decode.required "language" draft.language
  let source ← Decode.required "source" draft.source
  return { language, source }

def tooShort {α : Type} (length : Nat) : Except ShapeError α :=
  .error (.wrongLength length "struct EmbeddedFragment with 2 elements")

def ofValue : Value → Except ShapeError Fragment
  | .object members => do
      let draft ← members.foldlM (fun (draft : Draft) entry => draft.take entry.1 entry.2) {}
      draft.finish
  | .array items => do
      let language ← Decode.item items 0 FragmentLanguage.ofValue (tooShort 0)
      let source ← Decode.item items 1 Decode.text (tooShort 1)
      Decode.atMost 2 items "2 elements in sequence"
      return { language, source }
  | other => .error (.wrongType other.found "struct EmbeddedFragment")

def toValue (fragment : Fragment) : Value :=
  .object [("language", .text fragment.language.name), ("source", .text fragment.source)]

end Fragment

namespace Attribute

structure Draft where
  name : Option String := none
  value : Option (Option String) := none
  delimiter : Option Char := none
  fragment : Option (Option Fragment) := none

def Draft.take (draft : Draft) (key : String) (content : Value) :
    Except ShapeError Draft := do
  if key == "name" then
    return { draft with name := ← Decode.once key draft.name (Decode.text content) }
  else if key == "value" then
    return { draft with
      value := ← Decode.once key draft.value (Decode.optional Decode.text content) }
  else if key == "delimiter" then
    return { draft with
      delimiter := ← Decode.once key draft.delimiter (Decode.char content) }
  else if key == "embedded" then
    return { draft with
      fragment := ← Decode.once key draft.fragment
        (Decode.optional Fragment.ofValue content) }
  else
    return draft

def Draft.finish (draft : Draft) : Except ShapeError Attribute := do
  let name ← Decode.required "name" draft.name
  return {
    name
    value := draft.value.getD none
    delimiter := draft.delimiter.getD '"'
    fragment := draft.fragment.getD none }

def tooShort {α : Type} : Except ShapeError α :=
  .error (.wrongLength 0 "struct AttributeOccurrence with 4 elements")

def ofValue : Value → Except ShapeError Attribute
  | .object members => do
      let draft ← members.foldlM (fun (draft : Draft) entry => draft.take entry.1 entry.2) {}
      draft.finish
  | .array items => do
      let name ← Decode.item items 0 Decode.text tooShort
      let value ← Decode.item items 1 (Decode.optional Decode.text) (.ok none)
      let delimiter ← Decode.item items 2 Decode.char (.ok '"')
      let fragment ← Decode.item items 3 (Decode.optional Fragment.ofValue) (.ok none)
      Decode.atMost 4 items "4 elements in sequence"
      return { name, value, delimiter, fragment }
  | other => .error (.wrongType other.found "struct AttributeOccurrence")

def toValue (attr : Attribute) : Value :=
  .object <|
    [("name", .text attr.name)] ++
    (attr.value.map fun value => ("value", .text value)).toList ++
    [("delimiter", .text attr.delimiter.toString)] ++
    (attr.fragment.map fun fragment => ("embedded", fragment.toValue)).toList

end Attribute

end HtmlConformance
