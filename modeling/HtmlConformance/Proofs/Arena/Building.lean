import HtmlConformance.Proofs.Arena.Descent
import HtmlConformance.Proofs.Arena.Reading

namespace HtmlConformance

/-! The arena that is built from nested nodes. Every insertion adds a node and makes it the last
child of one that is there, so the links agree with each other from first to last; and the ids
count the nodes in document order. -/

namespace Node

mutual

/-- All subtrees of a node in document order, the node itself first. -/
def subtrees : Node → List Node
  | .element head children => .element head children :: subtreesAll children
  | .text content => [.text content]
  | .comment content => [.comment content]

def subtreesAll : List Node → List Node
  | [] => []
  | node :: rest => node.subtrees ++ subtreesAll rest

end

end Node

namespace Arena

variable {arena : Arena} {nodes : List Node}

/-! ## Links -/

namespace WellLinked

mutual

theorem insert {arena : Arena} {parent : NodeId} (linked : arena.WellLinked)
    (above : parent < arena.size) (node : Node) : (arena.insert parent node).WellLinked := by
  cases node with
  | element head children =>
      apply insertAll (linked.link_alloc above (.element head))
      simp
  | text content => exact linked.link_alloc above (.text content)
  | comment content => exact linked.link_alloc above (.comment content)

theorem insertAll {arena : Arena} {parent : NodeId} (linked : arena.WellLinked)
    (above : parent < arena.size) (nodes : List Node) :
    (arena.insertAll parent nodes).WellLinked := by
  cases nodes with
  | nil => exact linked
  | cons node rest =>
      apply insertAll (linked.insert above node)
      rw [size_insert]
      exact Nat.lt_add_right node.count above

end

theorem ofNodes (nodes : List Node) : (Arena.ofNodes nodes).WellLinked :=
  WellLinked.empty.insertAll Nat.one_pos nodes

end WellLinked

/-! ## Ids -/

namespace WellLinked

mutual

/-- A subtree that takes up consecutive ids has them in document order. -/
theorem preorder_of_stores (linked : arena.WellLinked) (node : Node) (start : Nat)
    (stored : arena.Stores start node) :
    arena.preorder start = List.range' start node.count := by
  cases node with
  | element head children =>
      rw [linked.preorder_eq, children_of_view stored.1,
        linked.flatMap_preorder_of_storesAll children (start + 1) stored.2, Node.count,
        List.range'_succ]
  | text content =>
      rw [linked.preorder_eq, children_of_view stored]
      rfl
  | comment content =>
      rw [linked.preorder_eq, children_of_view stored]
      rfl

theorem flatMap_preorder_of_storesAll (linked : arena.WellLinked) (nodes : List Node)
    (start : Nat) (stored : arena.StoresAll start nodes) :
    (Node.starts start nodes).flatMap arena.preorder =
      List.range' start (Node.countAll nodes) := by
  cases nodes with
  | nil => rfl
  | cons node rest =>
      rw [Node.starts, List.flatMap_cons, linked.preorder_of_stores node start stored.1,
        linked.flatMap_preorder_of_storesAll rest (start + node.count) stored.2, Node.countAll,
        ← List.range'_append, Nat.one_mul]

end

end WellLinked

mutual

theorem map_nodeWithin_of_stores (node : Node) (start levels : Nat)
    (enough : node.count ≤ levels) (stored : arena.Stores start node) :
    (List.range' start node.count).map (arena.nodeWithin levels) = node.subtrees.map some := by
  have first := nodeWithin_of_stores node start levels enough stored
  cases node with
  | element head children =>
      rw [Node.count] at enough ⊢
      rw [Node.subtrees, List.range'_succ, List.map_cons, List.map_cons, first,
        map_nodeWithin_of_storesAll children (start + 1) levels (by omega) stored.2]
  | text content => exact congrArg (fun read => [read]) first
  | comment content => exact congrArg (fun read => [read]) first

theorem map_nodeWithin_of_storesAll (nodes : List Node) (start levels : Nat)
    (enough : Node.countAll nodes ≤ levels) (stored : arena.StoresAll start nodes) :
    (List.range' start (Node.countAll nodes)).map (arena.nodeWithin levels) =
      (Node.subtreesAll nodes).map some := by
  cases nodes with
  | nil => rfl
  | cons node rest =>
      rw [Node.countAll] at enough ⊢
      rw [Node.subtreesAll, ← List.range'_append, Nat.one_mul, List.map_append, List.map_append,
        map_nodeWithin_of_stores node start levels (by omega) stored.1,
        map_nodeWithin_of_storesAll rest (start + node.count) levels (by omega) stored.2]

end

namespace Represents

theorem preorder_root (represents : arena.Represents nodes) (linked : arena.WellLinked) :
    arena.preorder Arena.root = List.range arena.size := by
  rw [linked.preorder_eq, children_of_view represents.root,
    linked.flatMap_preorder_of_storesAll nodes 1 represents.stored, represents.size,
    List.range_eq_range', List.range'_succ]
  rfl

/-- The ids behind that of the document count the nodes in document order. -/
theorem node?_succ (represents : arena.Represents nodes) (index : Nat) :
    arena.node? (index + 1) = (Node.subtreesAll nodes)[index]? := by
  have read : (List.range' 1 (Node.countAll nodes)).map arena.node? =
      (Node.subtreesAll nodes).map some :=
    map_nodeWithin_of_storesAll nodes 1 arena.size (represents.size ▸ Nat.le_succ _)
      represents.stored
  have here : ((List.range' 1 (Node.countAll nodes))[index]?).map arena.node? =
      ((Node.subtreesAll nodes)[index]?).map some := by
    rw [← List.getElem?_map, read, List.getElem?_map]
  rcases Nat.lt_or_ge index (Node.countAll nodes) with inside | outside
  · rw [List.getElem?_range' inside, Option.map_some] at here
    rcases Option.map_eq_some_iff.mp here.symm with ⟨node, found, same⟩
    rw [found, same, Nat.one_mul, Nat.add_comm]
  · rw [List.getElem?_eq_none (by simpa using outside), Option.map_none] at here
    have missing : arena.get? (index + 1) = none := by
      rw [get?_eq_none_iff, represents.size]
      exact Nat.succ_le_succ outside
    rw [Option.map_eq_none_iff.mp here.symm]
    exact nodeWithin_of_missing missing arena.size

end Represents

/-- The arena that is built from nested nodes reads back as these nodes. It has one node more than
they are, the document; the ids count them in document order, and so does a walk from the
document, which comes to each of them once. All links agree with each other. -/
theorem built_in_document_order (nodes : List Node) :
    let arena := ofNodes nodes
    arena.toNodes = nodes ∧
      arena.size = Node.countAll nodes + 1 ∧
      (∀ index, arena.node? (index + 1) = (Node.subtreesAll nodes)[index]?) ∧
      arena.preorder? root = some (List.range arena.size) ∧
      arena.WellLinked := by
  intro arena
  have represents := represents_ofNodes nodes
  have linked := WellLinked.ofNodes nodes
  refine ⟨represents.toNodes_eq, represents.size, represents.node?_succ, ?_, linked⟩
  rw [linked.preorder?_eq, represents.preorder_root linked]

end Arena

end HtmlConformance
