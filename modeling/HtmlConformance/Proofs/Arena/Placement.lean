import HtmlConformance.Validation
import Mathlib

namespace HtmlConformance

/-! Where the nodes of a document stand in the arena that is built from it: every subtree
takes up consecutive ids in document order. Reading an arena back and walking over it
are determined by this placement. -/

namespace Node

def starts (start : NodeId) : List Node → List NodeId
  | [] => []
  | node :: rest => start :: starts (start + node.count) rest

mutual

/-- The ids of the elements of a subtree whose root is `start`. -/
def elementIds (start : NodeId) : Node → List NodeId
  | .element _ children => start :: elementIdsAll (start + 1) children
  | .text _ => []
  | .comment _ => []

def elementIdsAll (start : NodeId) : List Node → List NodeId
  | [] => []
  | node :: rest => elementIds start node ++ elementIdsAll (start + node.count) rest

end

end Node

namespace Arena

def view? (arena : Arena) (id : NodeId) : Option (NodeContent × List NodeId) :=
  (arena.get? id).map fun node => (node.content, node.children.toList)

mutual

/-- A subtree stands in the arena under consecutive ids, its root at `start`. -/
def Stores (arena : Arena) (start : NodeId) : Node → Prop
  | .element head children =>
      arena.view? start = some (.element head, Node.starts (start + 1) children) ∧
        StoresAll arena (start + 1) children
  | .text content => arena.view? start = some (.text content, [])
  | .comment content => arena.view? start = some (.comment content, [])

def StoresAll (arena : Arena) (start : NodeId) : List Node → Prop
  | [] => True
  | node :: rest =>
      Stores arena start node ∧ StoresAll arena (start + node.count) rest

end

/-- The arena consists of the given nodes below a document node. -/
structure Represents (arena : Arena) (nodes : List Node) : Prop where
  root : arena.view? root = some (.document, Node.starts 1 nodes)
  size : arena.size = Node.countAll nodes + 1
  stored : arena.StoresAll 1 nodes

/-! ## Views -/

variable {arena : Arena} {id : NodeId} {content : NodeContent} {children : List NodeId}

theorem children_of_view (view : arena.view? id = some (content, children)) :
    (arena.children id).toList = children := by
  rcases Option.map_eq_some_iff.mp view with ⟨node, found, equal⟩
  simpa [Arena.children, found] using congrArg Prod.snd equal

theorem element?_of_view {element : Element}
    (view : arena.view? id = some (.element element, children)) :
    arena.element? id = some element := by
  rcases Option.map_eq_some_iff.mp view with ⟨node, found, equal⟩
  have held : node.content = .element element := congrArg Prod.fst equal
  simp [element?, found, held]

theorem element?_of_view_ne (view : arena.view? id = some (content, children))
    (different : ∀ element, content ≠ .element element) : arena.element? id = none := by
  rcases Option.map_eq_some_iff.mp view with ⟨node, found, equal⟩
  have held : node.content = content := congrArg Prod.fst equal
  cases content with
  | element element => exact absurd rfl (different element)
  | document => simp [element?, found, held]
  | text text => simp [element?, found, held]
  | comment text => simp [element?, found, held]

@[simp] theorem size_modify (change : ArenaNode → ArenaNode) :
    (arena.modify id change).size = arena.size :=
  Array.size_modify

theorem get?_modify (change : ArenaNode → ArenaNode) (other : NodeId) :
    (arena.modify id change).get? other =
      if id = other then (arena.get? other).map change else arena.get? other :=
  Array.getElem?_modify

theorem view?_setContent (content : NodeContent) (other : NodeId) :
    (arena.setContent id content).view? other =
      if id = other then (arena.view? other).map fun view => (content, view.2)
      else arena.view? other := by
  simp only [view?, setContent, get?_modify]
  split
  · cases arena.get? other <;> rfl
  · rfl

theorem view?_setContent_self (view : arena.view? id = some (content, children))
    (replaced : NodeContent) :
    (arena.setContent id replaced).view? id = some (replaced, children) := by
  rw [view?_setContent, if_pos rfl, view, Option.map_some]

theorem view?_setContent_of_ne {other : NodeId} (different : id ≠ other)
    (content : NodeContent) :
    (arena.setContent id content).view? other = arena.view? other := by
  rw [view?_setContent, if_neg different]

/-! ## Building -/

@[simp] theorem size_alloc (content : NodeContent) :
    (arena.alloc content).2.size = arena.size + 1 := by
  simp [alloc, size]

theorem view?_alloc (content : NodeContent) (other : NodeId) :
    (arena.alloc content).2.view? other =
      if other = arena.size then some (content, []) else arena.view? other := by
  simp only [view?, alloc, get?, Array.getElem?_push, size]
  by_cases fresh : other = arena.nodes.size <;> simp [fresh]

@[simp] theorem size_link (parent child : NodeId) :
    (arena.link parent child).size = arena.size := by
  unfold link
  cases (arena.children parent).back? <;> simp

theorem view?_link (parent child other : NodeId) :
    (arena.link parent child).view? other =
      if parent = other then
        (arena.view? other).map fun view => (view.1, view.2 ++ [child])
      else
        arena.view? other := by
  unfold link
  cases (arena.children parent).back? <;>
    simp only [view?, get?_modify] <;>
    cases arena.get? other <;>
    grind

/-- A node that is added as the last child of another takes the next id. -/
theorem view?_link_alloc {parent : NodeId} (bound : parent < arena.size)
    (content : NodeContent) (other : NodeId) :
    ((arena.alloc content).2.link parent arena.size).view? other =
      if other = arena.size then some (content, [])
      else if parent = other then
        (arena.view? other).map fun view => (view.1, view.2 ++ [arena.size])
      else
        arena.view? other := by
  rw [view?_link, view?_alloc]
  by_cases fresh : other = arena.size
  · have different : parent ≠ other := fresh ▸ Nat.ne_of_lt bound
    rw [if_neg different, if_pos fresh, if_pos fresh]
  · rw [if_neg fresh, if_neg fresh]

mutual

theorem size_insert (arena : Arena) (parent : NodeId) (node : Node) :
    (arena.insert parent node).size = arena.size + node.count := by
  cases node with
  | element head children =>
      simp only [insert, Node.count, size_insertAll, size_link, size_alloc]
      omega
  | text content => simp [insert, Node.count]
  | comment content => simp [insert, Node.count]

theorem size_insertAll (arena : Arena) (parent : NodeId) (nodes : List Node) :
    (arena.insertAll parent nodes).size = arena.size + Node.countAll nodes := by
  cases nodes with
  | nil => rfl
  | cons node rest =>
      simp only [insertAll, Node.countAll, size_insertAll, size_insert]
      omega

end

mutual

theorem view?_insert (arena : Arena) (parent : NodeId) (node : Node)
    (bound : parent < arena.size) {other : NodeId} (old : other < arena.size) :
    (arena.insert parent node).view? other =
      if parent = other then
        (arena.view? other).map fun view => (view.1, view.2 ++ [arena.size])
      else
        arena.view? other := by
  have notFresh : other ≠ arena.size := Nat.ne_of_lt old
  cases node with
  | element head children =>
      have grown : ((arena.alloc (.element head)).2.link parent arena.size).size =
          arena.size + 1 := by simp
      have stillOld := Nat.lt_of_lt_of_eq (Nat.lt_succ_of_lt old) grown.symm
      rw [insert]
      change (insertAll ((arena.alloc (.element head)).2.link parent arena.size)
        arena.size children).view? other = _
      have newest := Nat.lt_of_lt_of_eq (Nat.lt_succ_self _) grown.symm
      rw [view?_insertAll _ _ _ newest stillOld, if_neg notFresh.symm,
        view?_link_alloc bound, if_neg notFresh]
  | text content => exact (view?_link_alloc bound _ _).trans (if_neg notFresh)
  | comment content => exact (view?_link_alloc bound _ _).trans (if_neg notFresh)

theorem view?_insertAll (arena : Arena) (parent : NodeId) (nodes : List Node)
    (bound : parent < arena.size) {other : NodeId} (old : other < arena.size) :
    (arena.insertAll parent nodes).view? other =
      if parent = other then
        (arena.view? other).map fun view => (view.1, view.2 ++ Node.starts arena.size nodes)
      else
        arena.view? other := by
  cases nodes with
  | nil =>
      rw [insertAll]
      split
      · cases arena.view? other <;> simp [Node.starts]
      · rfl
  | cons node rest =>
      have grown := size_insert arena parent node
      have stillBound := Nat.lt_of_lt_of_eq (Nat.lt_add_right node.count bound) grown.symm
      have stillOld := Nat.lt_of_lt_of_eq (Nat.lt_add_right node.count old) grown.symm
      rw [insertAll, view?_insertAll _ _ _ stillBound stillOld,
        view?_insert _ _ _ bound old, grown]
      by_cases same : parent = other
      · simp only [if_pos same]
        cases arena.view? other <;> simp [Node.starts]
      · simp only [if_neg same]

end

/-! ## Placement -/

mutual

/-- Placement of a subtree depends on the views of its own ids only. -/
theorem Stores.congr {other : Arena} (node : Node) (start : Nat)
    (same : ∀ id : Nat, start ≤ id → id < start + node.count →
      other.view? id = arena.view? id)
    (stored : arena.Stores start node) : other.Stores start node := by
  cases node with
  | element head children =>
      simp only [Node.count] at same
      refine ⟨?_, StoresAll.congr children (start + 1) ?_ stored.2⟩
      · rw [same start (Nat.le_refl _) (by omega)]
        exact stored.1
      · intro id lower upper
        exact same id (by omega) (by omega)
  | text content =>
      exact (same start (Nat.le_refl _) (Nat.lt_succ_self _)).trans stored
  | comment content =>
      exact (same start (Nat.le_refl _) (Nat.lt_succ_self _)).trans stored

theorem StoresAll.congr {other : Arena} (nodes : List Node) (start : Nat)
    (same : ∀ id : Nat, start ≤ id → id < start + Node.countAll nodes →
      other.view? id = arena.view? id)
    (stored : arena.StoresAll start nodes) : other.StoresAll start nodes := by
  cases nodes with
  | nil => trivial
  | cons node rest =>
      simp only [Node.countAll] at same
      refine ⟨Stores.congr node start ?_ stored.1,
        StoresAll.congr rest (start + node.count) ?_ stored.2⟩
      · intro id lower upper
        exact same id lower (by omega)
      · intro id lower upper
        exact same id (by omega) (by omega)

end

mutual

theorem stores_insert (arena : Arena) (parent : NodeId) (node : Node)
    (bound : parent < arena.size) : (arena.insert parent node).Stores arena.size node := by
  cases node with
  | element head children =>
      let extended := (arena.alloc (.element head)).2.link parent arena.size
      have grown : extended.size = arena.size + 1 := by simp [extended]
      have fresh : arena.size < extended.size := by omega
      have view : extended.view? arena.size = some (.element head, []) :=
        (view?_link_alloc bound _ _).trans (if_pos rfl)
      change (extended.insertAll arena.size children).Stores arena.size _
      refine ⟨?_, grown ▸ stores_insertAll extended arena.size children fresh⟩
      rw [view?_insertAll _ _ _ fresh fresh, if_pos rfl, view, grown]
      rfl
  | text content => exact (view?_link_alloc bound _ _).trans (if_pos rfl)
  | comment content => exact (view?_link_alloc bound _ _).trans (if_pos rfl)

theorem stores_insertAll (arena : Arena) (parent : NodeId) (nodes : List Node)
    (bound : parent < arena.size) :
    (arena.insertAll parent nodes).StoresAll arena.size nodes := by
  cases nodes with
  | nil => trivial
  | cons node rest =>
      have grown := size_insert arena parent node
      have stillBound := Nat.lt_of_lt_of_eq (Nat.lt_add_right node.count bound) grown.symm
      refine ⟨Stores.congr node arena.size ?_ (stores_insert arena parent node bound),
        grown ▸ stores_insertAll (arena.insert parent node) parent rest stillBound⟩
      -- Later subtrees give the parent more children, and the parent stands before this one.
      intro id lower upper
      rw [insertAll, view?_insertAll _ _ _ stillBound (grown ▸ upper),
        if_neg (Nat.ne_of_lt (Nat.lt_of_lt_of_le bound lower))]

end

theorem represents_ofNodes (nodes : List Node) : (ofNodes nodes).Represents nodes where
  root := view?_insertAll empty root nodes Nat.one_pos Nat.one_pos
  size := (size_insertAll empty root nodes).trans (Nat.add_comm _ _)
  stored := stores_insertAll empty root nodes Nat.one_pos

end Arena

end HtmlConformance
