import HtmlConformance.Proofs.Arena.Placement
import HtmlConformance.Proofs.Lists

namespace HtmlConformance.Arena

/-! What is read off an arena that represents nodes: the nodes themselves, and the ids of
their elements in document order. -/

variable {arena : Arena}

/-! ## Reading back -/

theorem nodeWithin_element {levels : Nat} {id : NodeId} {head : Element}
    {children : List NodeId} (view : arena.view? id = some (.element head, children)) :
    arena.nodeWithin (levels + 1) id =
      some (.element head (children.filterMap (arena.nodeWithin levels))) := by
  rcases Option.map_eq_some_iff.mp view with ⟨node, found, equal⟩
  have held : node.content = .element head := congrArg Prod.fst equal
  have below : node.children.toList = children := congrArg Prod.snd equal
  simp [nodeWithin, found, held, below]

theorem nodeWithin_leaf {levels : Nat} {id : NodeId} {content : NodeContent} {leaf : Node}
    (view : arena.view? id = some (content, []))
    (reads : (content = .text text ∧ leaf = .text text) ∨
      (content = .comment text ∧ leaf = .comment text)) :
    arena.nodeWithin (levels + 1) id = some leaf := by
  rcases Option.map_eq_some_iff.mp view with ⟨node, found, equal⟩
  have held : node.content = content := congrArg Prod.fst equal
  rcases reads with ⟨rfl, rfl⟩ | ⟨rfl, rfl⟩ <;> simp [nodeWithin, found, held]

mutual

/-- A subtree is read back, provided that as many levels are read as it has nodes. -/
theorem nodeWithin_of_stores (node : Node) (start levels : Nat)
    (enough : node.count ≤ levels) (stored : arena.Stores start node) :
    arena.nodeWithin levels start = some node := by
  cases levels with
  | zero => cases node <;> simp [Node.count] at enough
  | succ levels =>
      cases node with
      | element head children =>
          have remaining : Node.countAll children ≤ levels := by
            simpa [Node.count] using enough
          rw [nodeWithin_element stored.1,
            filterMap_nodeWithin_of_storesAll children _ levels remaining stored.2]
      | text content => exact nodeWithin_leaf stored (.inl ⟨rfl, rfl⟩)
      | comment content => exact nodeWithin_leaf stored (.inr ⟨rfl, rfl⟩)

theorem filterMap_nodeWithin_of_storesAll (nodes : List Node) (start levels : Nat)
    (enough : Node.countAll nodes ≤ levels) (stored : arena.StoresAll start nodes) :
    (Node.starts start nodes).filterMap (arena.nodeWithin levels) = nodes := by
  cases nodes with
  | nil => rfl
  | cons node rest =>
      simp only [Node.countAll] at enough
      rw [Node.starts, List.filterMap_cons,
        nodeWithin_of_stores node start levels (by omega) stored.1,
        filterMap_nodeWithin_of_storesAll rest _ levels (by omega) stored.2]

end

theorem Represents.toNodes_eq {nodes : List Node} (represents : arena.Represents nodes) :
    arena.toNodes = nodes := by
  rw [toNodes, children_of_view represents.root]
  exact filterMap_nodeWithin_of_storesAll nodes 1 arena.size
    (represents.size ▸ Nat.le_succ _) represents.stored

/-! ## Walking -/

theorem walk_cons {id : NodeId} {content : NodeContent} {children : List NodeId}
    (view : arena.view? id = some (content, children)) (found : Array NodeId)
    (stack : List NodeId) :
    arena.walk found (id :: stack) =
      arena.walk (if (arena.element? id).isSome then found.push id else found)
        (children ++ stack) := by
  rw [walk, children_of_view view]

mutual

/-- The walk takes a subtree off the stack and notes its elements in document order. -/
theorem walk_stores (node : Node) (start : Nat) (stored : arena.Stores start node)
    (found : Array NodeId) (stack : List NodeId) :
    arena.walk found (start :: stack) =
      arena.walk (found ++ Node.elementIds start node) stack := by
  cases node with
  | element head children =>
      rw [walk_cons stored.1, element?_of_view stored.1,
        walk_storesAll children (start + 1) stored.2]
      simp [Node.elementIds]
  | text content =>
      rw [walk_cons stored, element?_of_view_ne stored nofun]
      simp [Node.elementIds]
  | comment content =>
      rw [walk_cons stored, element?_of_view_ne stored nofun]
      simp [Node.elementIds]

theorem walk_storesAll (nodes : List Node) (start : Nat) (stored : arena.StoresAll start nodes)
    (found : Array NodeId) (stack : List NodeId) :
    arena.walk found (Node.starts start nodes ++ stack) =
      arena.walk (found ++ Node.elementIdsAll start nodes) stack := by
  cases nodes with
  | nil => simp [Node.starts, Node.elementIdsAll]
  | cons node rest =>
      rw [Node.starts, List.cons_append, walk_stores node start stored.1,
        walk_storesAll rest (start + node.count) stored.2, append_list_append]
      rfl

end

theorem Represents.elementsFrom?_root {nodes : List Node}
    (represents : arena.Represents nodes) :
    arena.elementsFrom? Arena.root = some (Node.elementIdsAll 1 nodes) := by
  have walked : arena.walk #[] [Arena.root] =
      some ((#[] : Array NodeId) ++ Node.elementIdsAll 1 nodes) := by
    rw [walk_cons represents.root, element?_of_view_ne represents.root nofun,
      walk_storesAll nodes 1 represents.stored, walk]
    rfl
  simp [elementsFrom?, walked]

end HtmlConformance.Arena
