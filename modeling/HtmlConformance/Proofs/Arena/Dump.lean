import HtmlConformance.Proofs.Arena.DocumentOrder

namespace HtmlConformance.Arena

/-! What is read back from a document, compared with what a walk finds in it. Nested nodes have no
place for anything below a text or a comment, and a document node below another is left out with
all below it; a walk goes through all of these. So the elements that are read back are those that
stand in nothing but elements. -/

/-- All nodes from a node up to the document hold elements. -/
def WithinElements (arena : Arena) (id : NodeId) : Prop :=
  ∀ above, arena.AtOrBelow id above → above ≠ root → arena.holdsElement above = true

/-- All nodes from a node up to another hold elements. -/
def WithinElementsUpTo (arena : Arena) (top id : NodeId) : Prop :=
  ∀ above, arena.AtOrBelow id above → arena.AtOrBelow above top →
    arena.holdsElement above = true

variable {arena : Arena} {id child other : NodeId}

/-! ## Between two nodes -/

namespace WellLinked

theorem withinElementsUpTo_self_iff (linked : arena.WellLinked) :
    arena.WithinElementsUpTo id id ↔ arena.holdsElement id = true := by
  constructor
  · intro within
    exact within id (.refl id) (.refl id)
  · intro held above up down
    rwa [← linked.atOrBelow_antisymm up down]

/-- In the subtree of a child nothing changes if the way goes on to the parent, which holds an
element. -/
theorem withinElementsUpTo_parent_iff (linked : arena.WellLinked)
    (upward : arena.parent? child = some id) (held : arena.holdsElement id = true)
    (lower : arena.AtOrBelow other child) :
    arena.WithinElementsUpTo id other ↔ arena.WithinElementsUpTo child other := by
  constructor
  · intro within above up down
    exact within above up (down.trans (.of_parent upward (.refl id)))
  · intro within above up down
    rcases down.eq_or_child with rfl | ⟨between, linkedUp, down⟩
    · exact held
    · have same := linked.eq_of_atOrBelow linkedUp upward (up.trans down) lower
      exact within above up (same ▸ down)

/-- The way from a child of the document up to the document holds nothing else. -/
theorem withinElementsUpTo_iff (linked : arena.WellLinked)
    (upward : arena.parent? child = some root) (lower : arena.AtOrBelow other child) :
    arena.WithinElementsUpTo child other ↔
      arena.WithinElements other ∧ arena.holdsElement other = true := by
  constructor
  · intro within
    refine ⟨?_, within other (.refl other) lower⟩
    intro above up inner
    rcases up.total lower with down | beyond
    · exact within above up down
    · rcases beyond.eq_or_parent with rfl | ⟨next, linkedUp, beyond⟩
      · exact within child up (.refl child)
      · rw [upward] at linkedUp
        cases linkedUp
        rcases beyond.eq_or_parent with same | ⟨none, topped, _⟩
        · exact absurd same.symm inner
        · rw [linked.top] at topped
          cases topped
  · intro within above up down
    apply within.1 above up
    rintro rfl
    exact linked.not_atOrBelow upward down

end WellLinked

/-! ## Elements that are read back -/

theorem node?_of_element? (linked : arena.WellLinked) {head : Element}
    (held : arena.element? id = some head) :
    arena.node? id = some (.element head ((arena.children id).toList.filterMap arena.node?)) := by
  rw [linked.node?_eq]
  unfold element? at held
  split at held
  next element content => rw [content, Option.some.inj held]
  next => cases held

theorem elements_node?_of_not_element (linked : arena.WellLinked)
    (empty : arena.element? id = none) :
    Node.elementsAll (arena.node? id).toList = [] := by
  rw [linked.node?_eq]
  unfold element? at empty
  split at empty
  next => cases empty
  next other => split <;> simp_all [Node.elementsAll, Node.elements]

theorem elementsAll_filterMap_node? (ids : List NodeId) :
    Node.elementsAll (ids.filterMap arena.node?) =
      ids.flatMap fun id => Node.elementsAll (arena.node? id).toList := by
  induction ids with
  | nil => rfl
  | cons id rest induction =>
      rw [List.filterMap_cons, List.flatMap_cons, ← induction]
      cases arena.node? id <;> simp [Node.elementsAll]

namespace WellLinked

open Classical in
theorem elements_node? (linked : arena.WellLinked) (id : NodeId) :
    Node.elementsAll (arena.node? id).toList =
      ((arena.preorder id).filter fun other =>
        arena.WithinElementsUpTo id other).filterMap arena.element? := by
  induction id using linked.descent with
  | node id below =>
      cases held : arena.element? id with
      | none =>
          have nothing : ((arena.preorder id).filter fun other =>
              arena.WithinElementsUpTo id other) = [] := by
            rw [List.filter_eq_nil_iff]
            intro other member within
            have top := of_decide_eq_true within id (linked.mem_preorder_iff.mp member) (.refl id)
            simp [holdsElement, held] at top
          rw [elements_node?_of_not_element linked held, nothing, List.filterMap_nil]
      | some head =>
          have element : arena.holdsElement id = true := by simp [holdsElement, held]
          have top := linked.withinElementsUpTo_self_iff.mpr element
          have children : ∀ child ∈ (arena.children id).toList,
              Node.elementsAll (arena.node? child).toList =
                ((arena.preorder child).filter fun other =>
                  arena.WithinElementsUpTo id other).filterMap arena.element? := by
            intro child member
            have inside := Array.mem_toList_iff.mp member
            rw [below child inside]
            congr 1
            apply List.filter_congr
            intro other listed
            rw [decide_eq_decide]
            exact (linked.withinElementsUpTo_parent_iff (linked.mem_children_iff.mp inside) element
              (linked.mem_preorder_iff.mp listed)).symm
          rw [node?_of_element? linked held, linked.preorder_eq, List.filter_cons,
            if_pos (decide_eq_true top), List.filterMap_cons_some held, List.filter_flatMap,
            List.filterMap_flatMap, ← List.flatMap_congr children]
          simp [Node.elementsAll, Node.elements, elementsAll_filterMap_node?]

open Classical in
/-- Of the elements that a walk finds, those are read back that stand in nothing but elements. -/
theorem elements_toNodes (linked : arena.WellLinked) :
    Node.elementsAll arena.toNodes =
      (((arena.preorder root).filter arena.holdsElement).filter fun id =>
        arena.WithinElements id).filterMap arena.element? := by
  have outer : arena.holdsElement root = false := by
    simp [holdsElement, element?, linked.document]
  have children : ∀ child ∈ (arena.children root).toList,
      Node.elementsAll (arena.node? child).toList =
        (((arena.preorder child).filter arena.holdsElement).filter fun id =>
          arena.WithinElements id).filterMap arena.element? := by
    intro child member
    rw [linked.elements_node?, List.filter_filter]
    congr 1
    apply List.filter_congr
    intro other listed
    have upward := linked.mem_children_iff.mp (Array.mem_toList_iff.mp member)
    rw [decide_eq_decide.mpr
      (linked.withinElementsUpTo_iff upward (linked.mem_preorder_iff.mp listed)), Bool.decide_and,
      Bool.decide_eq_true]
  have read : Node.elementsAll arena.toNodes = (arena.children root).toList.flatMap fun child =>
      Node.elementsAll (arena.node? child).toList :=
    elementsAll_filterMap_node? _
  rw [read, List.flatMap_congr children, linked.preorder_eq,
    List.filter_cons_of_neg (by simp [outer]), List.filter_flatMap, List.filter_flatMap,
    List.filterMap_flatMap]

end WellLinked

/-- Where only elements are listed, to read none of them fewer is to leave none out. -/
theorem filterMap_filter_eq_iff {list : List NodeId} {test : NodeId → Bool}
    (held : ∀ id ∈ list, arena.holdsElement id = true) :
    list.filterMap arena.element? = (list.filter test).filterMap arena.element? ↔
      ∀ id ∈ list, test id = true := by
  have all := List.filterMap_length_eq_length.mpr held
  have kept : ((list.filter test).filterMap arena.element?).length = (list.filter test).length :=
    List.filterMap_length_eq_length.mpr fun id member => held id (List.mem_filter.mp member).1
  constructor
  · intro same
    apply List.length_filter_eq_length_iff.mp
    rw [← kept, ← same, all]
  · intro passes
    rw [List.filter_eq_self.mpr passes]

open Classical in
/-- A pass visits the elements that the walk from the document finds. Those of them that stand in
nothing but elements are read back, in the same order; so the pass and the dump are about the same
elements if and only if none stands in a text, in a comment or in a second document. -/
theorem dumped_within_elements (nodes : List Node) (calls : List Call)
    (careful : Call.CarefulAll (ofNodes nodes) calls) :
    let arena := (ofNodes nodes).afterAll calls
    let dumped := Node.elementsAll arena.toNodes
    ∃ walked, arena.elementsFrom? root = some walked ∧
      (∀ hook pass, arena.validate hook pass = walked.foldl (visit hook) (arena, pass)) ∧
      dumped = (walked.filter fun id => arena.WithinElements id).filterMap arena.element? ∧
      (walked.filterMap arena.element? = dumped ↔ ∀ id ∈ walked, arena.WithinElements id) := by
  intro arena dumped
  have linked : arena.WellLinked := (WellLinked.ofNodes nodes).afterAll careful
  have walked := linked.elementsFrom?_eq root
  refine ⟨_, walked, ?_, linked.elements_toNodes, ?_⟩
  · intro hook pass
    rw [Arena.validate, elementsFrom, walked, Option.getD_some]
  · simp only [dumped, linked.elements_toNodes]
    rw [filterMap_filter_eq_iff fun id member => (List.mem_filter.mp member).2]
    simp only [decide_eq_true_eq]

open Classical in
/-- Of a paragraph that stands in the document and another that is put into its text, the first is
read back. -/
theorem dumped_within_elements_of_paragraphs :
    let nodes : List Node := [.element ⟨"p", []⟩ [.text "outer"]]
    let calls : List Call := [.appendElement 2 ⟨"p", [.valued "id" "inner"]⟩]
    let arena := (ofNodes nodes).afterAll calls
    Call.CarefulAll (ofNodes nodes) calls ∧
      ∃ walked, arena.elementsFrom? root = some walked ∧
        (walked.filter fun id => arena.WithinElements id).filterMap arena.element? =
          [⟨"p", []⟩] := by
  intro nodes calls arena
  have careful : Call.CarefulAll (ofNodes nodes) calls := ⟨trivial, trivial⟩
  have dumped : Node.elementsAll arena.toNodes = [⟨"p", []⟩] := by decide
  rcases dumped_within_elements nodes calls careful with ⟨walked, found, _, read, _⟩
  exact ⟨careful, walked, found, read.symm.trans dumped⟩

/-- An element that is put into a text is visited, but it is not read back. -/
theorem dump_leaves_out_element_in_text :
    let calls : List Call :=
      [.alloc (.text "outer"), .append root 1, .appendElement 1 ⟨"p", []⟩]
    let arena := empty.afterAll calls
    Call.CarefulAll empty calls ∧
      ∃ walked, arena.elementsFrom? root = some walked ∧
        walked.filterMap arena.element? ≠ Node.elementsAll arena.toNodes := by
  intro calls arena
  have careful : Call.CarefulAll empty calls := by
    refine ⟨trivial, ?_, trivial, trivial⟩
    intro _ _
    refine ⟨by decide, rfl, ?_⟩
    rintro ⟨steps, leads⟩
    rcases steps with _ | _ <;> cases leads
  have linked : arena.WellLinked := WellLinked.empty.afterAll careful
  have dumped : Node.elementsAll arena.toNodes = [] := by decide
  have below : arena.ancestor? 2 2 = some root := by decide
  have held : arena.element? 2 = some ⟨"p", []⟩ := by decide
  refine ⟨careful, _, linked.elementsFrom?_eq root, ?_⟩
  rw [dumped, Ne, List.filterMap_eq_nil_iff]
  intro missing
  have walked : 2 ∈ (arena.preorder root).filter arena.holdsElement := by
    rw [List.mem_filter, linked.mem_preorder_iff, holdsElement, held]
    exact ⟨⟨2, below⟩, rfl⟩
  rw [missing 2 walked] at held
  cases held

end HtmlConformance.Arena
