import HtmlConformance.Proofs.Arena.Calls

namespace HtmlConformance.Arena

/-! What holds of a document whatever calls it was built by, nodes that stand in several places
and nodes below themselves included: every link leads to a node that is there, a parent lists
its child, and siblings stand side by side in some list of children. -/

variable {arena : Arena}

/-- Every link is anchored in a list of children. The converse fails where a node was appended
twice: an earlier list keeps it, and the links speak of the later one. -/
structure Anchored (arena : Arena) : Prop where
  child_lt : ∀ {parent child}, child ∈ arena.children parent → child < arena.size
  of_parent : ∀ {parent child}, arena.parent? child = some parent → child ∈ arena.children parent
  of_next : ∀ {before after}, arena.next? before = some after →
    ∃ parent, arena.Adjacent parent before after
  of_previous : ∀ {before after}, arena.previous? after = some before →
    ∃ parent, arena.Adjacent parent before after

theorem Adjacent.before_mem {parent before after : NodeId}
    (beside : arena.Adjacent parent before after) : before ∈ arena.children parent :=
  Array.mem_toList_iff.mp (beside.subset List.mem_cons_self)

theorem Adjacent.after_mem {parent before after : NodeId}
    (beside : arena.Adjacent parent before after) : after ∈ arena.children parent :=
  Array.mem_toList_iff.mp (beside.subset (List.mem_cons_of_mem before List.mem_cons_self))

/-! ## One call -/

theorem links_empty (id : NodeId) :
    empty.parent? id = none ∧ empty.children id = #[] ∧ empty.next? id = none ∧
      empty.previous? id = none := by
  cases id with
  | zero => exact ⟨rfl, rfl, rfl, rfl⟩
  | succ id => exact ⟨rfl, rfl, rfl, rfl⟩

theorem anchored_empty : Anchored empty where
  child_lt member := by simp [links_empty] at member
  of_parent linked := by simp [links_empty] at linked
  of_next linked := by simp [links_empty] at linked
  of_previous linked := by simp [links_empty] at linked

theorem Anchored.alloc (anchored : arena.Anchored) (content : NodeContent) :
    (arena.alloc content).2.Anchored where
  child_lt member := by
    rw [children_alloc] at member
    rw [size_alloc]
    exact Nat.lt_succ_of_lt (anchored.child_lt member)
  of_parent linked := by
    rw [parent?_alloc] at linked
    rw [children_alloc]
    exact anchored.of_parent linked
  of_next linked := by
    rw [next?_alloc] at linked
    simpa only [adjacent_alloc] using anchored.of_next linked
  of_previous linked := by
    rw [previous?_alloc] at linked
    simpa only [adjacent_alloc] using anchored.of_previous linked

theorem Anchored.last_lt (anchored : arena.Anchored) {parent last : NodeId}
    (ends : (arena.children parent).back? = some last) : last < arena.size :=
  anchored.child_lt (Array.mem_of_back? ends)

theorem Anchored.link (anchored : arena.Anchored) {parent child : NodeId}
    (above : parent < arena.size) (below : child < arena.size) :
    (arena.link parent child).Anchored where
  child_lt {place other} member := by
    rw [children_link place above] at member
    rw [size_link]
    split at member
    next =>
      rcases Array.mem_push.mp member with old | rfl
      · exact anchored.child_lt old
      · exact below
    next => exact anchored.child_lt member
  of_parent {place other} linked := by
    rw [parent?_link other below] at linked
    rw [children_link place above]
    split at linked
    next same =>
      subst same
      rw [if_pos (Option.some.inj linked)]
      exact Array.mem_push_self
    next =>
      have old := anchored.of_parent linked
      split
      · exact Array.mem_push.mpr (.inl old)
      · exact old
  of_next {before after} linked := by
    simp only [adjacent_link above]
    rw [next?_link before fun _ => anchored.last_lt] at linked
    split at linked
    next ends => exact ⟨parent, .inr ⟨rfl, ends, Option.some.inj linked⟩⟩
    next =>
      obtain ⟨place, beside⟩ := anchored.of_next linked
      exact ⟨place, .inl beside⟩
  of_previous {before after} linked := by
    simp only [adjacent_link above]
    rw [previous?_link after below] at linked
    have keeps (old : arena.previous? after = some before) :
        ∃ place, arena.Adjacent place before after ∨
          (parent = place ∧ (arena.children place).back? = some before ∧ child = after) := by
      obtain ⟨place, beside⟩ := anchored.of_previous old
      exact ⟨place, .inl beside⟩
    split at linked
    next same =>
      cases ends : (arena.children parent).back? with
      | none => exact keeps (by simpa [ends] using linked)
      | some last =>
          have equal : last = before := by simpa [ends] using linked
          exact ⟨parent, .inr ⟨rfl, equal ▸ ends, same⟩⟩
    next => exact keeps linked

/-! ## Any run -/

theorem Anchored.afterAll (anchored : arena.Anchored) (calls : List Call) :
    (arena.afterAll calls).Anchored :=
  afterAll_keeps Anchored (fun content kept => kept.alloc content)
    (fun above below kept => kept.link above below) anchored calls

end HtmlConformance.Arena
