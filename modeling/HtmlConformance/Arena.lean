import HtmlConformance.Element

namespace HtmlConformance

/-! A document as numbered nodes with links in every direction. Nodes are only ever
added, so an id stays good for the life of a document. Putting a node under a parent
never takes it away from where it was: every child list it already stands in keeps it,
and the parent and sibling links speak of the last place. -/

abbrev NodeId := Nat

inductive NodeContent where
  | document
  | element (element : Element)
  | text (content : String)
  | comment (content : String)

structure ArenaNode where
  content : NodeContent
  parent : Option NodeId := none
  children : Array NodeId := #[]
  next : Option NodeId := none
  previous : Option NodeId := none

structure Arena where
  nodes : Array ArenaNode

inductive ArenaError where
  | noSuchNode (id : NodeId)
  | notAnElement (id : NodeId)
  deriving DecidableEq

namespace ArenaError

def message : ArenaError → String
  | noSuchNode id => "node NodeId(" ++ toString id ++ ") does not exist"
  | notAnElement id => "node NodeId(" ++ toString id ++ ") is not an element"

end ArenaError

namespace Arena

def root : NodeId := 0

def empty : Arena := ⟨#[{ content := .document }]⟩

def size (arena : Arena) : Nat := arena.nodes.size

def isEmpty (arena : Arena) : Bool := arena.nodes.isEmpty

def get? (arena : Arena) (id : NodeId) : Option ArenaNode := arena.nodes[id]?

def parent? (arena : Arena) (id : NodeId) : Option NodeId :=
  (arena.get? id).bind ArenaNode.parent

def next? (arena : Arena) (id : NodeId) : Option NodeId :=
  (arena.get? id).bind ArenaNode.next

def previous? (arena : Arena) (id : NodeId) : Option NodeId :=
  (arena.get? id).bind ArenaNode.previous

/-- The children of a node, first to last; a missing node has none. -/
def children (arena : Arena) (id : NodeId) : Array NodeId :=
  ((arena.get? id).map ArenaNode.children).getD #[]

def element? (arena : Arena) (id : NodeId) : Option Element :=
  match (arena.get? id).map ArenaNode.content with
  | some (.element element) => some element
  | _ => none

def text? (arena : Arena) (id : NodeId) : Option String :=
  match (arena.get? id).map ArenaNode.content with
  | some (.text content) => some content
  | _ => none

def requireElement (arena : Arena) (id : NodeId) : Except ArenaError Element :=
  match (arena.get? id).map ArenaNode.content with
  | some (.element element) => .ok element
  | some _ => .error (.notAnElement id)
  | none => .error (.noSuchNode id)

def documentElement? (arena : Arena) : Option NodeId :=
  (arena.children root).find? fun id => (arena.element? id).isSome

/-! ## Changes -/

/-- Change one node; a missing node changes nothing. -/
def modify (arena : Arena) (id : NodeId) (change : ArenaNode → ArenaNode) : Arena :=
  ⟨arena.nodes.modify id change⟩

def setContent (arena : Arena) (id : NodeId) (content : NodeContent) : Arena :=
  arena.modify id fun node => { node with content }

def alloc (arena : Arena) (content : NodeContent) : NodeId × Arena :=
  (arena.size, ⟨arena.nodes.push { content }⟩)

/-- Link a node as the last child of another; both must be there. Its previous link is
set only where there is a child to precede it, and its next link is left alone. -/
def link (arena : Arena) (parent child : NodeId) : Arena :=
  let last := (arena.children parent).back?
  let linked :=
    (arena.modify parent fun node => { node with children := node.children.push child }).modify
      child fun node => { node with parent := some parent }
  match last with
  | none => linked
  | some sibling =>
      (linked.modify sibling fun node => { node with next := some child }).modify
        child fun node => { node with previous := some sibling }

def requireNode (arena : Arena) (id : NodeId) : Except ArenaError Unit :=
  if id < arena.size then .ok () else .error (.noSuchNode id)

/-- Append a node under a parent. A missing parent is noticed before a missing child. -/
def append (arena : Arena) (parent child : NodeId) : Except ArenaError Arena := do
  arena.requireNode parent
  arena.requireNode child
  return arena.link parent child

def appendElement (arena : Arena) (parent : NodeId) (element : Element) :
    Except ArenaError (NodeId × Arena) := do
  arena.requireNode parent
  let (id, extended) := arena.alloc (.element element)
  return (id, extended.link parent id)

/-! ## Document order -/

/-- Take the first node off the stack, note it if it holds an element, and put its children
on the stack in its place, until the stack is empty. Where a node stands below itself this
never ends. -/
def walk (arena : Arena) (found : Array NodeId) (stack : List NodeId) :
    Option (Array NodeId) :=
  match stack with
  | [] => some found
  | id :: rest =>
      arena |>.walk (if (arena.element? id).isSome then found.push id else found)
        ((arena.children id).toList ++ rest)
partial_fixpoint

def elementsFrom? (arena : Arena) (id : NodeId) : Option (List NodeId) :=
  (arena.walk #[] [id]).map Array.toList

/-- The elements at and below a node in document order; there is an answer only where the
walk ends. -/
def elementsFrom (arena : Arena) (id : NodeId) : List NodeId :=
  (arena.elementsFrom? id).getD []

end Arena

end HtmlConformance
