import HtmlConformance.Arena
import HtmlConformance.Node

namespace HtmlConformance

/-! Between nested nodes and numbered ones. Building numbers the nodes in document
order; reading back drops document nodes below the root together with their subtrees,
and whatever stands below character data or a comment. -/

namespace Arena

mutual

def insert (arena : Arena) (parent : NodeId) : Node → Arena
  | .element head children =>
      let (id, extended) := arena.alloc (.element head)
      (extended.link parent id).insertAll id children
  | .text content =>
      let (id, extended) := arena.alloc (.text content)
      extended.link parent id
  | .comment content =>
      let (id, extended) := arena.alloc (.comment content)
      extended.link parent id

def insertAll (arena : Arena) (parent : NodeId) : List Node → Arena
  | [] => arena
  | node :: rest => (arena.insert parent node).insertAll parent rest

end

def ofNodes (nodes : List Node) : Arena := empty.insertAll root nodes

/-- The subtree at a node, down to a number of levels. -/
def nodeWithin (arena : Arena) : (levels : Nat) → NodeId → Option Node
  | 0, _ => none
  | levels + 1, id =>
      match arena.get? id with
      | none => none
      | some node =>
          match node.content with
          | .document => none
          | .element head =>
              some (.element head (node.children.toList.filterMap (arena.nodeWithin levels)))
          | .text content => some (.text content)
          | .comment content => some (.comment content)

def toNodes (arena : Arena) : List Node :=
  (arena.children root).toList.filterMap (arena.nodeWithin arena.size)

end Arena

end HtmlConformance
