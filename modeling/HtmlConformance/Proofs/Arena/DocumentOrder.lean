import HtmlConformance.Proofs.Arena.Building
import HtmlConformance.Proofs.Arena.Calls

namespace HtmlConformance.Arena

/-! The walk that keeps a stack of nodes it has yet to visit, and the recursion that it stands for.
In a document that is built with care the walk ends wherever it begins, and finds the elements
among the nodes of the subtree in document order. -/

def holdsElement (arena : Arena) (id : NodeId) : Bool := (arena.element? id).isSome

variable {arena : Arena}

/-- To take nodes off the stack one by one is to take off all their subtrees. -/
theorem walk_append (ids : List NodeId)
    (each : ∀ id ∈ ids, ∀ found stack, arena.walk found (id :: stack) =
      arena.walk (found ++ (arena.preorder id).filter arena.holdsElement) stack)
    (found : Array NodeId) (stack : List NodeId) :
    arena.walk found (ids ++ stack) =
      arena.walk (found ++ (ids.flatMap arena.preorder).filter arena.holdsElement) stack := by
  induction ids generalizing found with
  | nil => simp
  | cons id rest induction =>
      have later := induction fun other member => each other (List.mem_cons_of_mem id member)
      rw [List.cons_append, each id List.mem_cons_self, later, append_list_append,
        List.flatMap_cons, List.filter_append]

namespace WellLinked

theorem walk_cons (linked : arena.WellLinked) (id : NodeId) (found : Array NodeId)
    (stack : List NodeId) :
    arena.walk found (id :: stack) =
      arena.walk (found ++ (arena.preorder id).filter arena.holdsElement) stack := by
  induction id using linked.descent generalizing found stack with
  | node id below =>
      have children := walk_append (arena.children id).toList
        fun child member => below child (Array.mem_toList_iff.mp member)
      rw [walk, children, linked.preorder_eq, List.filter_cons]
      cases held : (arena.element? id).isSome <;> simp [holdsElement, held]

theorem elementsFrom?_eq (linked : arena.WellLinked) (id : NodeId) :
    arena.elementsFrom? id = some ((arena.preorder id).filter arena.holdsElement) := by
  rw [elementsFrom?, linked.walk_cons, walk]
  simp

end WellLinked

/-- From whatever node of a document it begins, a walk ends and finds the elements in the order of
the recursion over the subtree, which ends too. It finds none twice, and it finds all of which the
chain of parents leads to the node, also through nodes that hold no element. -/
theorem walk_in_document_order (nodes : List Node) (calls : List Call)
    (careful : Call.CarefulAll (ofNodes nodes) calls) (id : NodeId) :
    let arena := (ofNodes nodes).afterAll calls
    ∃ order found, arena.preorder? id = some order ∧ arena.elementsFrom? id = some found ∧
      found = order.filter arena.holdsElement ∧ found.Nodup ∧
      ∀ other, other ∈ found ↔ (arena.element? other).isSome = true ∧ arena.AtOrBelow other id := by
  intro arena
  have linked : arena.WellLinked := (WellLinked.ofNodes nodes).afterAll careful
  refine ⟨_, _, linked.preorder?_eq id, linked.elementsFrom?_eq id, rfl,
    (linked.nodup_preorder id).filter _, ?_⟩
  intro other
  rw [List.mem_filter, linked.mem_preorder_iff]
  exact And.comm

/-- A walk finds an element that stands in a text, which is put into the document last. -/
theorem walk_in_document_order_through_text :
    let nodes : List Node := [.element ⟨"p", []⟩ [.text "left"]]
    let calls : List Call :=
      [.alloc (.text "right"), .appendElement 3 ⟨"b", []⟩, .append 1 3, .append 9 3]
    let arena := (ofNodes nodes).afterAll calls
    Call.CarefulAll (ofNodes nodes) calls ∧
      ∃ found, arena.elementsFrom? root = some found ∧ 4 ∈ found ∧ 3 ∉ found := by
  intro nodes calls arena
  have careful : Call.CarefulAll (ofNodes nodes) calls := by
    refine ⟨trivial, trivial, ?_, ?_, trivial⟩
    · intro _ _
      refine ⟨by decide, rfl, ?_⟩
      rintro ⟨steps, leads⟩
      rcases steps with _ | _ | _ <;> cases leads
    · intro missing
      exact absurd missing (by decide)
  have bold : (arena.element? 4).isSome = true := by decide
  have plain : (arena.element? 3).isSome = false := by decide
  have below : arena.ancestor? 3 4 = some root := by decide
  rcases walk_in_document_order nodes calls careful root with
    ⟨order, found, _, walked, _, _, all⟩
  refine ⟨careful, found, walked, (all 4).mpr ⟨bold, 3, below⟩, ?_⟩
  intro member
  exact Bool.false_ne_true (plain.symm.trans ((all 3).mp member).1)

end HtmlConformance.Arena
