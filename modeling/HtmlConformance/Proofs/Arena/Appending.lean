import HtmlConformance.Proofs.Arena.WellLinked

namespace HtmlConformance.Arena

/-! What is known of a node once it has been appended, whatever calls came before. It is the last
child of its parent and its parent link says so. Its sibling links are those of a last child if
it stood nowhere before; a node that is moved may keep links of its earlier place. -/

variable {arena : Arena} {parent child : NodeId}

/-- The node is the last child of the parent, and all its links agree with that. -/
structure LastChild (arena : Arena) (parent child : NodeId) : Prop where
  last : (arena.children parent).back? = some child
  under : arena.parent? child = some parent
  next : arena.next? child = none
  previous : arena.previous? child = (arena.children parent).pop.back?

/-! ## Nodes that stand nowhere -/

/-- A node that is listed by some parent has a parent, which may be another one. -/
def Placed (arena : Arena) : Prop :=
  ∀ parent child, child ∈ arena.children parent → arena.parent? child ≠ none

theorem placed_empty : Placed empty := by
  intro parent child member
  simp [links_empty] at member

theorem Placed.alloc (placed : arena.Placed) (content : NodeContent) :
    (arena.alloc content).2.Placed := by
  intro parent child member
  rw [children_alloc] at member
  rw [parent?_alloc]
  exact placed parent child member

theorem Placed.link (placed : arena.Placed) (above : parent < arena.size)
    (below : child < arena.size) : (arena.link parent child).Placed := by
  intro place id member
  rw [parent?_link id below]
  by_cases same : child = id
  · simp [same]
  · rw [if_neg same]
    rw [children_link place above] at member
    split at member
    next =>
      apply placed place id
      exact (Array.mem_push.mp member).resolve_right (Ne.symm same)
    next => exact placed place id member

theorem Placed.afterAll (placed : arena.Placed) (calls : List Call) :
    (arena.afterAll calls).Placed :=
  afterAll_keeps Placed (fun content kept => Placed.alloc kept content)
    (fun above below kept => Placed.link kept above below) placed calls

/-- A node without a parent is listed nowhere and has no siblings. -/
theorem Placed.links_of_free (placed : arena.Placed) (anchored : arena.Anchored)
    (free : arena.parent? child = none) :
    (∀ place, child ∉ arena.children place) ∧ arena.next? child = none ∧
      arena.previous? child = none := by
  have unlisted (place : NodeId) : child ∉ arena.children place := fun member =>
    placed place child member free
  refine ⟨unlisted, ?_, ?_⟩
  · rw [Option.eq_none_iff_forall_ne_some]
    intro after linked
    obtain ⟨place, beside⟩ := anchored.of_next linked
    exact unlisted place beside.before_mem
  · rw [Option.eq_none_iff_forall_ne_some]
    intro before linked
    obtain ⟨place, beside⟩ := anchored.of_previous linked
    exact unlisted place beside.after_mem

/-! ## Appended nodes -/

/-- The next link is touched only where the node was the last child already, and then it leads
to the node itself. The previous link is touched only where there is a child to lead to. -/
theorem Anchored.lastChild_link_iff (anchored : arena.Anchored) (above : parent < arena.size)
    (below : child < arena.size) :
    (arena.link parent child).LastChild parent child ↔
      arena.next? child = none ∧ (arena.children parent).back? ≠ some child ∧
        (arena.children parent = #[] → arena.previous? child = none) := by
  have children : (arena.link parent child).children parent =
      (arena.children parent).push child := by
    rw [children_link parent above, if_pos rfl]
  have next : (arena.link parent child).next? child =
      if (arena.children parent).back? = some child then some child else arena.next? child :=
    next?_link child fun _ => anchored.last_lt
  have previous : (arena.link parent child).previous? child =
      (arena.children parent).back?.or (arena.previous? child) := by
    rw [previous?_link child below, if_pos rfl]
  constructor
  · intro holds
    have cleared := next.symm.trans holds.next
    have before := previous.symm.trans holds.previous
    rw [children, Array.pop_push] at before
    split at cleared
    next => cases cleared
    next other =>
      refine ⟨cleared, other, fun alone => ?_⟩
      rw [alone, Array.back?_empty, Option.none_or] at before
      exact before
  · rintro ⟨cleared, other, alone⟩
    refine ⟨?_, ?_, ?_, ?_⟩
    · rw [children, Array.back?_push]
    · rw [parent?_link child below, if_pos rfl]
    · rw [next, if_neg other]
      exact cleared
    · rw [previous, children, Array.pop_push]
      cases ends : (arena.children parent).back? with
      | some last => rfl
      | none =>
          rw [Option.none_or]
          exact alone (Array.back?_eq_none_iff.mp ends)

/-- Whatever calls came before, a node that is appended is the last child of its parent, and its
parent link says so. Its sibling links are those of a last child exactly if it had no next
sibling, was not the last child already and, where it is the only child now, had no previous
sibling. A node that stood nowhere is always linked in full. -/
theorem appended_last_iff (calls : List Call) (parent child : NodeId)
    (above : parent < (empty.afterAll calls).size)
    (below : child < (empty.afterAll calls).size) :
    let arena := empty.afterAll calls
    ∃ linked, arena.append parent child = .ok linked ∧
      (linked.children parent).back? = some child ∧ linked.parent? child = some parent ∧
      (linked.LastChild parent child ↔
        arena.next? child = none ∧ (arena.children parent).back? ≠ some child ∧
          (arena.children parent = #[] → arena.previous? child = none)) ∧
      (arena.parent? child = none → linked.LastChild parent child) := by
  intro arena
  have anchored : arena.Anchored := anchored_empty.afterAll calls
  have placed : arena.Placed := placed_empty.afterAll calls
  have linked := anchored.lastChild_link_iff above below
  refine ⟨_, append_eq_ok_iff.mpr ⟨above, below, rfl⟩, ?_, ?_, linked, ?_⟩
  · rw [children_link parent above, if_pos rfl, Array.back?_push]
  · rw [parent?_link child below, if_pos rfl]
  · intro free
    obtain ⟨unlisted, cleared, alone⟩ := placed.links_of_free anchored free
    exact linked.mpr ⟨cleared, fun last => unlisted parent (Array.mem_of_back? last),
      fun _ => alone⟩

/-- The last child of the document is moved behind the only child of another node. -/
theorem appended_last_of_moved :
    let calls : List Call :=
      [.appendElement root ⟨"p", []⟩, .appendElement 1 ⟨"b", []⟩, .appendElement root ⟨"i", []⟩]
    let arena := empty.afterAll calls
    1 < arena.size ∧ 3 < arena.size ∧ arena.parent? 3 = some root ∧
      ∃ linked, arena.append 1 3 = .ok linked ∧ linked.LastChild 1 3 := by
  intro calls arena
  have above : 1 < arena.size := by decide
  have below : 3 < arena.size := by decide
  obtain ⟨linked, appended, _, _, holds, _⟩ := appended_last_iff calls 1 3 above below
  exact ⟨above, below, by decide, linked, appended, holds.mpr (by decide)⟩

/-- The second of three siblings is moved under the third, as its only child. It keeps both its
siblings: the first one, which stays behind, and its new parent. -/
theorem moved_node_keeps_siblings :
    let calls : List Call :=
      [.appendElement root ⟨"i", []⟩, .appendElement root ⟨"b", []⟩, .appendElement root ⟨"p", []⟩]
    let arena := empty.afterAll calls
    2 ≠ root ∧ ¬ arena.AtOrBelow 3 2 ∧
      ∃ linked, arena.append 3 2 = .ok linked ∧ linked.children 3 = #[2] ∧
        linked.next? 2 = some 3 ∧ linked.previous? 2 = some 1 ∧ ¬ linked.LastChild 3 2 := by
  intro calls arena
  have next : (arena.link 3 2).next? 2 = some 3 := by decide
  refine ⟨by decide, ?_, arena.link 3 2, rfl, by decide, next, by decide, ?_⟩
  · rintro ⟨steps, leads⟩
    rcases steps with _ | _ | _ <;> cases leads
  · intro holds
    rw [holds.next] at next
    cases next

end HtmlConformance.Arena
