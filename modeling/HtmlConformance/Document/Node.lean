import HtmlConformance.Document.Attribute
import HtmlConformance.Json.Read
import HtmlConformance.Node

namespace HtmlConformance

/-! Nodes in document files. A node is an object with a member `type` that says which kind
of node it is; that member is looked at where it stands, and the others once the object
has been read. -/

open Json

inductive NodeKind where
  | element
  | text
  | comment
  deriving DecidableEq

namespace NodeKind

def all : List NodeKind := [element, text, comment]

def name : NodeKind → String
  | element => "element"
  | text => "text"
  | comment => "comment"

def require (name : String) : Except ShapeError NodeKind :=
  match all.find? fun kind => kind.name == name with
  | some kind => .ok kind
  | none => .error (.unknownName name (all.map NodeKind.name))

def ofIndex (index : Nat) : Except ShapeError NodeKind :=
  match all[index]? with
  | some kind => .ok kind
  | none =>
      .error (.wrongValue (.number (.integer index)) "variant index 0 <= i < 3")

/-- A kind by its name; below the top of a document also by its number. -/
def ofValue : Value → Except ShapeError NodeKind
  | .text name => require name
  | .number (.integer (.ofNat index)) => ofIndex index
  | other => .error (.wrongType other.found "variant identifier")

def read : Reader NodeKind := do
  match ← Reader.peek with
  | some '"' => .ofShape (require (← Reader.text .strict))
  | _ => Reader.wrongType "variant identifier"

end NodeKind

namespace Node

def expected : String := "internally tagged enum SerializedNode"

/-! ## Members of each kind -/

structure ElementDraft where
  tag : Option String := none
  attributes : Option (List Attribute) := none
  children : Option (List Node) := none

def ElementDraft.take (child : Value → Except ShapeError Node) (draft : ElementDraft)
    (key : String) (content : Value) : Except ShapeError ElementDraft := do
  if key == "tag" then
    return { draft with tag := ← Decode.once key draft.tag (Decode.text content) }
  else if key == "attributes" then
    return { draft with
      attributes := ← Decode.once key draft.attributes
        (Decode.sequence Attribute.ofValue content) }
  else if key == "children" then
    return { draft with
      children := ← Decode.once key draft.children (Decode.sequence child content) }
  else
    return draft

def ElementDraft.finish (draft : ElementDraft) : Except ShapeError Node := do
  let tag ← Decode.required "tag" draft.tag
  return .element { tag, attributes := draft.attributes.getD [] } (draft.children.getD [])

def takeContent (earlier : Option String) (key : String) (content : Value) :
    Except ShapeError (Option String) :=
  if key == "content" then
    Decode.once key earlier (Decode.text content)
  else
    .ok earlier

def contentOfMembers (members : List (String × Value)) : Except ShapeError String := do
  let found ← members.foldlM (fun earlier entry => takeContent earlier entry.1 entry.2) none
  Decode.required "content" found

def contentOfItems (form : String) (items : List Value) : Except ShapeError String := do
  let content ← Decode.item items 0 Decode.text
    (.error (.wrongLength 0 ("struct variant SerializedNode::" ++ form ++ " with 1 element")))
  Decode.atMost 1 items "1 element in sequence"
  return content

def ofMembers (child : Value → Except ShapeError Node) (kind : NodeKind)
    (members : List (String × Value)) : Except ShapeError Node :=
  match kind with
  | .element => do
      let draft ← members.foldlM
        (fun (draft : ElementDraft) entry => draft.take child entry.1 entry.2) {}
      draft.finish
  | .text => Node.text <$> contentOfMembers members
  | .comment => Node.comment <$> contentOfMembers members

def ofItems (child : Value → Except ShapeError Node) (kind : NodeKind) (items : List Value) :
    Except ShapeError Node :=
  match kind with
  | .element => do
      let tag ← Decode.item items 0 Decode.text
        (.error (.wrongLength 0 "struct variant SerializedNode::Element with 3 elements"))
      let attributes ← Decode.item items 1 (Decode.sequence Attribute.ofValue) (.ok [])
      let children ← Decode.item items 2 (Decode.sequence child) (.ok [])
      Decode.atMost 3 items "3 elements in sequence"
      return .element { tag, attributes } children
  | .text => Node.text <$> contentOfItems "Text" items
  | .comment => Node.comment <$> contentOfItems "Comment" items

/-! ## Nodes below the top of a document -/

structure Tagged where
  kind : Option NodeKind := none
  members : List (String × Value) := []

def Tagged.take (tagged : Tagged) (key : String) (content : Value) :
    Except ShapeError Tagged := do
  if key == "type" then
    return { tagged with kind := ← Decode.once key tagged.kind (NodeKind.ofValue content) }
  else
    return { tagged with members := (key, content) :: tagged.members }

def Tagged.finish (child : Value → Except ShapeError Node) (tagged : Tagged) :
    Except ShapeError Node := do
  let kind ← Decode.required "type" tagged.kind
  ofMembers child kind tagged.members.reverse

def ofValue : (levels : Nat) → Value → Except ShapeError Node
  | 0, content => .error (.wrongType content.found expected)
  | levels + 1, content =>
      match content with
      | .object members => do
          let tagged ← members.foldlM
            (fun (tagged : Tagged) entry => tagged.take entry.1 entry.2) {}
          tagged.finish (ofValue levels)
      | .array [] => .error (.missingField "type")
      | .array (kind :: items) => do
          let kind ← NodeKind.ofValue kind
          ofItems (ofValue levels) kind items
      | other => .error (.wrongType other.found expected)

/-- A node below the top of a document, which nests no deeper than a text may. -/
def ofChild : Value → Except ShapeError Node := ofValue nestingLimit

/-! ## Nodes at the top of a document -/

def Tagged.read (depth : Nat) (tagged : Tagged) (key : String) : Reader Tagged := do
  if key == "type" then
    if tagged.kind.isSome then
      .fail (.shape (.repeatedField key))
    else
      Reader.colon
      return { tagged with kind := some (← NodeKind.read) }
  else
    Reader.colon
    let content ← Reader.value .strict depth
    return { tagged with members := (key, content) :: tagged.members }

def readObject (depth : Nat) : Reader Node := do
  Reader.advance
  let tagged ← Reader.members .strict ({} : Tagged) (Tagged.read depth)
  .ofShape (tagged.finish ofChild)

def readArray (depth : Nat) : Reader Node := do
  Reader.advance
  if ← Reader.anotherItem true then
    let kind ← NodeKind.read
    let items ← Reader.items (Reader.value .strict depth) false
    .ofShape (ofItems ofChild kind items)
  else
    .fail (.shape (.missingField "type"))

def read (depth : Nat) : Reader Node := do
  match ← Reader.peek, depth with
  | some '{', 0 | some '[', 0 => .fail .malformed
  | some '{', depth + 1 => readObject depth
  | some '[', depth + 1 => readArray depth
  | _, _ => Reader.wrongType expected

/-! ## Writing -/

mutual

def toValue : Node → Value
  | .element head children =>
      .object <|
        [("type", .text NodeKind.element.name),
          ("tag", .text head.tag),
          ("attributes", .array (head.attributes.map Attribute.toValue))] ++
        match children with
        | [] => []
        | first :: rest => [("children", .array (toValue first :: toValues rest))]
  | .text content =>
      .object [("type", .text NodeKind.text.name), ("content", .text content)]
  | .comment content =>
      .object [("type", .text NodeKind.comment.name), ("content", .text content)]

def toValues : List Node → List Value
  | [] => []
  | node :: rest => toValue node :: toValues rest

end

end Node

end HtmlConformance
