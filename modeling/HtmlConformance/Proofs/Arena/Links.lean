import HtmlConformance.Proofs.Arena.Placement

namespace HtmlConformance.Arena

/-! The links between the nodes of a document, and what becomes of them when a node is added
and when a node is appended. -/

variable {arena : Arena} {id : NodeId}

theorem lt_size_iff : id < arena.size ↔ (arena.get? id).isSome = true := by
  rw [Option.isSome_iff_ne_none, get?, Ne, Array.getElem?_eq_none_iff, Nat.not_le, size]

theorem lt_size_of_get? {node : ArenaNode} (found : arena.get? id = some node) :
    id < arena.size :=
  lt_size_iff.mpr (by rw [found, Option.isSome_some])

theorem get?_eq_none_iff : arena.get? id = none ↔ arena.size ≤ id :=
  Array.getElem?_eq_none_iff

theorem lt_size_of_parent? {parent : NodeId} (linked : arena.parent? id = some parent) :
    id < arena.size := by
  rcases Option.bind_eq_some_iff.mp linked with ⟨node, found, _⟩
  exact lt_size_of_get? found

/-- Only a node that is there has children. -/
theorem lt_size_of_mem_children {child : NodeId} (member : child ∈ arena.children id) :
    id < arena.size := by
  rw [lt_size_iff]
  cases found : arena.get? id with
  | none => simp [children, found] at member
  | some node => rfl

/-! ## Added nodes -/

section

variable (arena : Arena) (content : NodeContent) (id : NodeId)

theorem get?_alloc :
    (arena.alloc content).2.get? id =
      if id = arena.size then some { content } else arena.get? id :=
  Array.getElem?_push

/-- A new node has no links, like one that is not there. -/
theorem links_alloc :
    (arena.alloc content).2.parent? id = arena.parent? id ∧
      (arena.alloc content).2.children id = arena.children id ∧
      (arena.alloc content).2.next? id = arena.next? id ∧
      (arena.alloc content).2.previous? id = arena.previous? id := by
  simp only [parent?, children, next?, previous?, get?_alloc]
  split
  next fresh =>
    have missing : arena.get? id = none := get?_eq_none_iff.mpr (Nat.le_of_eq fresh.symm)
    simp [missing]
  next => simp

@[simp] theorem parent?_alloc : (arena.alloc content).2.parent? id = arena.parent? id :=
  (arena.links_alloc content id).1

@[simp] theorem children_alloc : (arena.alloc content).2.children id = arena.children id :=
  (arena.links_alloc content id).2.1

@[simp] theorem next?_alloc : (arena.alloc content).2.next? id = arena.next? id :=
  (arena.links_alloc content id).2.2.1

@[simp] theorem previous?_alloc : (arena.alloc content).2.previous? id = arena.previous? id :=
  (arena.links_alloc content id).2.2.2

end

/-! ## Appended nodes -/

section

variable (arena : Arena) (parent child id : NodeId)

/-- What appending does to every node: the parent gains a child, the child learns its parent,
and the child that was the last one before and the new one learn of each other. -/
theorem get?_link :
    (arena.link parent child).get? id = (arena.get? id).map fun node =>
      { content := node.content
        parent := if child = id then some parent else node.parent
        children := if parent = id then node.children.push child else node.children
        next := if (arena.children parent).back? = some id then some child else node.next
        previous :=
          if child = id then (arena.children parent).back?.or node.previous
          else node.previous } := by
  unfold link
  cases (arena.children parent).back? with
  | none =>
      simp only [get?_modify]
      cases arena.get? id with
      | none => simp
      | some node => split_ifs <;> simp_all
  | some last =>
      simp only [get?_modify]
      cases arena.get? id with
      | none => simp
      | some node => split_ifs <;> simp_all

theorem content_link :
    ((arena.link parent child).get? id).map ArenaNode.content =
      (arena.get? id).map ArenaNode.content := by
  rw [get?_link, Option.map_map]
  rfl

variable {arena parent child}

theorem parent?_link (present : child < arena.size) :
    (arena.link parent child).parent? id =
      if child = id then some parent else arena.parent? id := by
  rw [parent?, parent?, get?_link]
  cases found : arena.get? id with
  | none =>
      have different : child ≠ id :=
        Nat.ne_of_lt (Nat.lt_of_lt_of_le present (get?_eq_none_iff.mp found))
      simp [different]
  | some node => simp

theorem children_link (present : parent < arena.size) :
    (arena.link parent child).children id =
      if parent = id then (arena.children id).push child else arena.children id := by
  rw [children, children, get?_link]
  cases found : arena.get? id with
  | none =>
      have different : parent ≠ id :=
        Nat.ne_of_lt (Nat.lt_of_lt_of_le present (get?_eq_none_iff.mp found))
      simp [different]
  | some node => simp

theorem next?_link (present : ∀ last, (arena.children parent).back? = some last →
      last < arena.size) :
    (arena.link parent child).next? id =
      if (arena.children parent).back? = some id then some child else arena.next? id := by
  rw [next?, next?, get?_link]
  cases found : arena.get? id with
  | none =>
      have other : (arena.children parent).back? ≠ some id := by
        intro last
        exact absurd (present id last) (Nat.not_lt.mpr (get?_eq_none_iff.mp found))
      simp [other]
  | some node => simp

theorem previous?_link (present : child < arena.size) :
    (arena.link parent child).previous? id =
      if child = id then (arena.children parent).back?.or (arena.previous? id)
      else arena.previous? id := by
  rw [previous?, previous?, get?_link]
  cases found : arena.get? id with
  | none =>
      have different : child ≠ id :=
        Nat.ne_of_lt (Nat.lt_of_lt_of_le present (get?_eq_none_iff.mp found))
      simp [different]
  | some node => simp

end

/-! ## Neighbours -/

/-- The one node stands right before the other among the children of the parent. -/
def Adjacent (arena : Arena) (parent before after : NodeId) : Prop :=
  [before, after] <:+: (arena.children parent).toList

theorem pair_infix_concat_iff {α : Type} {list : List α} {before after last : α} :
    [before, after] <:+: list ++ [last] ↔
      [before, after] <:+: list ∨ (list.getLast? = some before ∧ last = after) := by
  rw [List.infix_concat_iff, List.suffix_concat_iff, or_comm]
  apply or_congr_right
  constructor
  · rintro (empty | ⟨start, equal, ends⟩)
    · cases empty
    · have parted : [before] ++ [after] = start ++ [last] := equal
      obtain ⟨rfl, same⟩ := List.append_inj' parted rfl
      cases same
      exact ⟨List.singleton_suffix_iff_getLast?_eq_some.mp ends, rfl⟩
  · rintro ⟨ends, rfl⟩
    exact .inr ⟨[before], rfl, List.singleton_suffix_iff_getLast?_eq_some.mpr ends⟩

@[simp] theorem adjacent_alloc {content : NodeContent} {parent before after : NodeId} :
    (arena.alloc content).2.Adjacent parent before after ↔
      arena.Adjacent parent before after := by
  simp [Adjacent]

/-- Appending makes neighbours of the last child and the new one, and parts none. -/
theorem adjacent_link {parent child place before after : NodeId}
    (present : parent < arena.size) :
    (arena.link parent child).Adjacent place before after ↔
      arena.Adjacent place before after ∨
        (parent = place ∧ (arena.children place).back? = some before ∧ child = after) := by
  rw [Adjacent, Adjacent, children_link place present]
  by_cases same : parent = place
  · simp [same, pair_infix_concat_iff]
  · simp [same]

end HtmlConformance.Arena
