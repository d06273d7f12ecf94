import HtmlConformance.Json.Read
import HtmlConformance.Options

namespace HtmlConformance

/-! Options in option files. Every option may be left out, and members with another name
are passed over. -/

open Json

namespace Version

def require (name : String) : Except ShapeError Version :=
  match ofShortName? name with
  | some version => .ok version
  | none => .error (.unknownName name (all.map shortName))

def readName : Reader Version := do
  .ofShape (require (← Reader.text .strict))

def readKey : Reader Version := do
  match ← Reader.peek with
  | some '"' => readName
  | some _ => .fail .malformed
  | none => .fail .truncated

/-- A version as an object whose one key is the short name and whose value is null. -/
def readObject : Reader Version := do
  Reader.advance
  let version ← readKey
  Reader.colon
  match ← Reader.peek with
  | some 'n' =>
      Reader.advance
      Reader.word ['u', 'l', 'l']
  | _ => Reader.wrongType "unit"
  match ← Reader.peek with
  | some '}' => Reader.advance
  | some _ => .fail .malformed
  | none => .fail .truncated
  return version

def read : Reader Version := do
  match ← Reader.peek with
  | some '"' => readName
  | some '{' => readObject
  | some _ => .fail .malformed
  | none => .fail .truncated

end Version

namespace Options

def readSwitch : Reader Bool := do
  match ← Reader.peek with
  | some 't' =>
      Reader.advance
      Reader.word ['r', 'u', 'e']
      return true
  | some 'f' =>
      Reader.advance
      Reader.word ['a', 'l', 's', 'e']
      return false
  | _ => Reader.wrongType "a boolean"

def readOptional {α : Type} (present : Reader α) : Reader (Option α) := do
  match ← Reader.peek with
  | some 'n' =>
      Reader.advance
      Reader.word ['u', 'l', 'l']
      return none
  | _ => some <$> present

def readText : Reader String := do
  match ← Reader.peek with
  | some '"' => Reader.text .strict
  | _ => Reader.wrongType "a string"

structure Draft where
  slashUrls : Option Bool := none
  xmlTags : Option Bool := none
  xmlOutput : Option Bool := none
  fallbackAlt : Option (Option String) := none
  doctype : Option (Option Version) := none

def Draft.finish (draft : Draft) : Options where
  slashUrls := draft.slashUrls.getD false
  xmlTags := draft.xmlTags.getD false
  xmlOutput := draft.xmlOutput.getD false
  fallbackAlt := draft.fallbackAlt.getD none
  doctype := draft.doctype.getD none

def readOnce {α : Type} (name : String) (earlier : Option α) (content : Reader α) :
    Reader (Option α) := do
  if earlier.isSome then
    .fail (.shape (.repeatedField name))
  else
    Reader.colon
    some <$> content

def Draft.read (draft : Draft) (key : String) : Reader Draft := do
  if key == "normalize_url_backslashes" then
    return { draft with slashUrls := ← readOnce key draft.slashUrls readSwitch }
  else if key == "xml_tags" then
    return { draft with xmlTags := ← readOnce key draft.xmlTags readSwitch }
  else if key == "xml_output" then
    return { draft with xmlOutput := ← readOnce key draft.xmlOutput readSwitch }
  else if key == "fallback_alt_text" then
    return { draft with
      fallbackAlt := ← readOnce key draft.fallbackAlt (readOptional readText) }
  else if key == "doctype" then
    return { draft with doctype := ← readOnce key draft.doctype (readOptional Version.read) }
  else
    Reader.colon
    Reader.skip
    return draft

def readField {α : Type} (first : Bool) (content : Reader α) : Reader (Option α) := do
  if ← Reader.anotherItem first then some <$> content else return none

def readArray : Reader Options := do
  Reader.advance
  let slashUrls ← readField true readSwitch
  let xmlTags ← readField false readSwitch
  let xmlOutput ← readField false readSwitch
  let fallbackAlt ← readField false (readOptional readText)
  let doctype ← readField false (readOptional Version.read)
  Reader.closeArray
  return ({ slashUrls, xmlTags, xmlOutput, fallbackAlt, doctype } : Draft).finish

def read : Reader Options := do
  match ← Reader.peek with
  | none => .fail .truncated
  | some '[' => readArray
  | some '{' =>
      Reader.advance
      return (← Reader.members .strict ({} : Draft) Draft.read).finish
  | some _ => Reader.wrongType "struct ConformanceOptions"

def parse (text : String) : Except Fault Options := do
  let (options, rest) ← read text.toList
  let _ ← Reader.finish rest
  return options

end Options

end HtmlConformance
