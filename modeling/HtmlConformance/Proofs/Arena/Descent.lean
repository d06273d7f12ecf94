import HtmlConformance.Proofs.Arena.WellLinked
import HtmlConformance.Proofs.Lists

namespace HtmlConformance

/-! Going down in a document whose links agree with each other. No node is below itself, so fewer
nodes stand below a child than below its parent, and whatever recurs from a node to its children
comes to an end: the listing of a subtree in document order, and reading it back as nested nodes. -/

namespace Arena

variable {arena : Arena} {id parent child top : NodeId}

/-! ## Chains of parents -/

theorem ancestor?_add (steps more : Nat) (id : NodeId) :
    arena.ancestor? (steps + more) id =
      (arena.ancestor? steps id).bind (arena.ancestor? more) := by
  induction steps generalizing id with
  | zero =>
      rw [Nat.zero_add]
      rfl
  | succ steps induction =>
      rw [Nat.succ_add, ancestor?, ancestor?, Option.bind_assoc]
      exact congrArg (Option.bind _) (funext induction)

namespace AtOrBelow

theorem refl (id : NodeId) : arena.AtOrBelow id id := ⟨0, rfl⟩

theorem trans {middle : NodeId} (lower : arena.AtOrBelow id middle)
    (upper : arena.AtOrBelow middle top) : arena.AtOrBelow id top := by
  rcases lower with ⟨steps, leads⟩
  rcases upper with ⟨more, leadsOn⟩
  exact ⟨steps + more, by rw [ancestor?_add, leads, Option.bind_some, leadsOn]⟩

/-- A chain that leaves a node goes on with its parent. -/
theorem eq_or_parent (leads : arena.AtOrBelow id top) :
    id = top ∨ ∃ above, arena.parent? id = some above ∧ arena.AtOrBelow above top := by
  rcases leads with ⟨steps, leads⟩
  cases steps with
  | zero => exact .inl (Option.some.inj leads)
  | succ steps =>
      rcases Option.bind_eq_some_iff.mp leads with ⟨above, linked, leads⟩
      exact .inr ⟨above, linked, steps, leads⟩

/-- A chain that comes to a node comes from one of its children. -/
theorem eq_or_child (leads : arena.AtOrBelow id top) :
    id = top ∨ ∃ child, arena.parent? child = some top ∧ arena.AtOrBelow id child := by
  rcases leads with ⟨steps, leads⟩
  cases steps with
  | zero => exact .inl (Option.some.inj leads)
  | succ steps =>
      rw [ancestor?_add] at leads
      rcases Option.bind_eq_some_iff.mp leads with ⟨child, lower, last⟩
      rcases Option.bind_eq_some_iff.mp last with ⟨above, linked, same⟩
      exact .inr ⟨child, linked.trans same, steps, lower⟩

/-- Of two nodes above the same one, one is above the other. -/
theorem total {left right : NodeId} (first : arena.AtOrBelow id left)
    (second : arena.AtOrBelow id right) :
    arena.AtOrBelow left right ∨ arena.AtOrBelow right left := by
  rcases first with ⟨few, first⟩
  rcases second with ⟨many, second⟩
  rcases Nat.le_total few many with fewer | more
  · rcases Nat.exists_eq_add_of_le fewer with ⟨rest, rfl⟩
    rw [ancestor?_add, first, Option.bind_some] at second
    exact .inl ⟨rest, second⟩
  · rcases Nat.exists_eq_add_of_le more with ⟨rest, rfl⟩
    rw [ancestor?_add, second, Option.bind_some] at first
    exact .inr ⟨rest, first⟩

end AtOrBelow

namespace WellLinked

/-- A chain that came back to where it began could go round for ever. -/
theorem not_atOrBelow (linked : arena.WellLinked) (above : arena.parent? child = some parent) :
    ¬ arena.AtOrBelow parent child := by
  intro returns
  rcases returns with ⟨steps, leads⟩
  have round : arena.ancestor? (steps + 1) child = some child := by
    rw [ancestor?, above, Option.bind_some, leads]
  rcases linked.grounded child with ⟨length, ends⟩
  induction length using Nat.strong_induction_on with
  | _ length shorter =>
      rcases Nat.lt_or_ge length (steps + 1) with before | after
      · rcases Nat.exists_eq_add_of_le (Nat.le_of_lt before) with ⟨rest, equal⟩
        rw [equal, ancestor?_add, ends] at round
        cases round
      · rcases Nat.exists_eq_add_of_le after with ⟨rest, equal⟩
        rw [equal, ancestor?_add, round, Option.bind_some] at ends
        exact shorter rest (by omega) ends

theorem atOrBelow_antisymm (linked : arena.WellLinked) (down : arena.AtOrBelow id top)
    (up : arena.AtOrBelow top id) : id = top := by
  rcases down.eq_or_parent with same | ⟨above, upward, leads⟩
  · exact same
  · exact absurd (leads.trans up) (linked.not_atOrBelow upward)

/-- The subtrees of two children of a node have no node in common. -/
theorem eq_of_atOrBelow (linked : arena.WellLinked) {left right : NodeId}
    (first : arena.parent? left = some parent) (second : arena.parent? right = some parent)
    (belowLeft : arena.AtOrBelow id left) (belowRight : arena.AtOrBelow id right) :
    left = right := by
  have apart {lower upper : NodeId} (here : arena.parent? lower = some parent)
      (there : arena.parent? upper = some parent) (leads : arena.AtOrBelow lower upper) :
      lower = upper := by
    rcases leads.eq_or_parent with same | ⟨above, upward, leads⟩
    · exact same
    · rw [here] at upward
      cases upward
      exact absurd leads (linked.not_atOrBelow there)
  rcases belowLeft.total belowRight with lower | upper
  · exact apart first second lower
  · exact (apart second first upper).symm

end WellLinked

/-! ## Induction from the children of a node -/

section

open Classical

/-- How many nodes stand at or below a node. -/
noncomputable def weight (arena : Arena) (id : NodeId) : Nat :=
  ((Finset.range arena.size).filter fun other => arena.AtOrBelow other id).card

theorem weight_le_size (arena : Arena) (id : NodeId) : arena.weight id ≤ arena.size :=
  (Finset.card_filter_le _ _).trans_eq (Finset.card_range arena.size)

theorem weight_pos (present : id < arena.size) : 0 < arena.weight id := by
  apply Finset.card_pos.mpr
  exact ⟨id, Finset.mem_filter.mpr ⟨Finset.mem_range.mpr present, .refl id⟩⟩

theorem WellLinked.weight_lt (linked : arena.WellLinked) (member : child ∈ arena.children parent) :
    arena.weight child < arena.weight parent := by
  have above := linked.mem_children_iff.mp member
  have below : arena.AtOrBelow child parent := .of_parent above (.refl parent)
  apply Finset.card_lt_card
  refine Finset.ssubset_iff_subset_ne.mpr ⟨?_, ?_⟩
  · apply Finset.monotone_filter_right
    intro other _ leads
    exact leads.trans below
  · intro same
    have inside : parent ∈ (Finset.range arena.size).filter fun other =>
        arena.AtOrBelow other parent := by
      rw [Finset.mem_filter, Finset.mem_range]
      exact ⟨lt_size_of_mem_children member, .refl parent⟩
    rw [← same] at inside
    exact linked.not_atOrBelow above (Finset.mem_filter.mp inside).2

end

/-- What holds of a node whenever it holds of its children holds of every node. -/
@[elab_as_elim]
theorem WellLinked.descent (linked : arena.WellLinked) {motive : NodeId → Prop}
    (node : ∀ id, (∀ child ∈ arena.children id, motive child) → motive id) (id : NodeId) :
    motive id := by
  induction weight : arena.weight id using Nat.strong_induction_on generalizing id with
  | _ weight lighter =>
      subst weight
      apply node
      intro child member
      exact lighter _ (linked.weight_lt member) child rfl

/-! ## Document order -/

/-- A node and all nodes below it in document order: the node comes first, then the subtrees of its
children from first to last. There is an answer only where the recursion ends. -/
def preorder? (arena : Arena) (id : NodeId) : Option (List NodeId) := do
  let below ← (arena.children id).toList.mapM fun child => arena |>.preorder? child
  return id :: below.flatten
partial_fixpoint

def preorder (arena : Arena) (id : NodeId) : List NodeId := (arena.preorder? id).getD []

theorem preorder?_of_children
    (children : ∀ child ∈ arena.children id, arena.preorder? child = some (arena.preorder child)) :
    arena.preorder? id = some (id :: (arena.children id).toList.flatMap arena.preorder) := by
  have below : (arena.children id).toList.mapM arena.preorder? =
      some ((arena.children id).toList.map arena.preorder) := by
    apply mapM_of_forall_some
    intro child member
    exact children child (Array.mem_toList_iff.mp member)
  rw [preorder?, below, List.flatMap_def]
  rfl

namespace WellLinked

theorem preorder?_eq (linked : arena.WellLinked) (id : NodeId) :
    arena.preorder? id = some (arena.preorder id) := by
  induction id using linked.descent with
  | node id below => rw [preorder, preorder?_of_children below, Option.getD_some]

theorem preorder_eq (linked : arena.WellLinked) (id : NodeId) :
    arena.preorder id = id :: (arena.children id).toList.flatMap arena.preorder := by
  have children : ∀ child ∈ arena.children id,
      arena.preorder? child = some (arena.preorder child) :=
    fun child _ => linked.preorder?_eq child
  rw [preorder, preorder?_of_children children, Option.getD_some]

theorem mem_preorder_iff (linked : arena.WellLinked) {other : NodeId} :
    other ∈ arena.preorder id ↔ arena.AtOrBelow other id := by
  induction id using linked.descent with
  | node id below =>
      rw [linked.preorder_eq, List.mem_cons, List.mem_flatMap]
      constructor
      · intro member
        rcases member with same | ⟨child, member, lower⟩
        · exact same ▸ .refl other
        · have inside := Array.mem_toList_iff.mp member
          exact ((below child inside).mp lower).trans
            (.of_parent (linked.mem_children_iff.mp inside) (.refl id))
      · intro leads
        rcases leads.eq_or_child with same | ⟨child, above, lower⟩
        · exact .inl same
        · have inside := linked.mem_children_iff.mpr above
          exact .inr ⟨child, Array.mem_toList_iff.mpr inside, (below child inside).mpr lower⟩

theorem nodup_preorder (linked : arena.WellLinked) (id : NodeId) : (arena.preorder id).Nodup := by
  induction id using linked.descent with
  | node id below =>
      have upward {child : NodeId} (member : child ∈ (arena.children id).toList) :
          arena.parent? child = some id :=
        linked.mem_children_iff.mp (Array.mem_toList_iff.mp member)
      rw [linked.preorder_eq, List.nodup_cons, List.mem_flatMap, List.nodup_flatMap]
      refine ⟨?_, ?_, ?_⟩
      · intro again
        rcases again with ⟨child, member, lower⟩
        exact linked.not_atOrBelow (upward member) (linked.mem_preorder_iff.mp lower)
      · intro child member
        exact below child (Array.mem_toList_iff.mp member)
      · apply List.Pairwise.imp_mem.mpr
        refine (linked.nodup id).imp ?_
        intro left right different first second other inLeft inRight
        exact different (linked.eq_of_atOrBelow (upward first) (upward second)
          (linked.mem_preorder_iff.mp inLeft) (linked.mem_preorder_iff.mp inRight))

end WellLinked

/-! ## Nested nodes -/

theorem nodeWithin_of_missing (missing : arena.get? id = none) (levels : Nat) :
    arena.nodeWithin levels id = none := by
  cases levels with
  | zero => rfl
  | succ levels => rw [nodeWithin, missing]

/-- The subtree at a node as nested nodes. No subtree has more levels than the arena has nodes. -/
def node? (arena : Arena) (id : NodeId) : Option Node := arena.nodeWithin arena.size id

namespace WellLinked

/-- It does not matter how many levels are read, if they are as many as there are nodes. -/
theorem nodeWithin_eq (linked : arena.WellLinked) {levels more : Nat}
    (enough : arena.weight id ≤ levels) (enoughToo : arena.weight id ≤ more) :
    arena.nodeWithin levels id = arena.nodeWithin more id := by
  induction id using linked.descent generalizing levels more with
  | node id below =>
      cases found : arena.get? id with
      | none => rw [nodeWithin_of_missing found, nodeWithin_of_missing found]
      | some node =>
          have children : arena.children id = node.children := by simp [Arena.children, found]
          have some_levels := weight_pos (lt_size_of_get? found)
          rcases Nat.exists_eq_add_of_lt (Nat.lt_of_lt_of_le some_levels enough) with ⟨few, rfl⟩
          rcases Nat.exists_eq_add_of_lt (Nat.lt_of_lt_of_le some_levels enoughToo) with ⟨many, rfl⟩
          have same : node.children.toList.filterMap (arena.nodeWithin (0 + few)) =
              node.children.toList.filterMap (arena.nodeWithin (0 + many)) := by
            apply List.filterMap_congr
            intro child member
            rw [Array.mem_toList_iff, ← children] at member
            have lighter := linked.weight_lt member
            exact below child member (by omega) (by omega)
          simp only [nodeWithin, found, same]

/-- The subtree at a node is read from the subtrees at its children; nothing is read below a node
that holds no element. -/
theorem node?_eq (linked : arena.WellLinked) (id : NodeId) :
    arena.node? id =
      match (arena.get? id).map ArenaNode.content with
      | some (.element head) =>
          some (.element head ((arena.children id).toList.filterMap arena.node?))
      | some (.text content) => some (.text content)
      | some (.comment content) => some (.comment content)
      | _ => none := by
  cases found : arena.get? id with
  | none => exact nodeWithin_of_missing found arena.size
  | some node =>
      have children : arena.children id = node.children := by simp [Arena.children, found]
      have deeper : arena.nodeWithin (arena.size + 1) id = arena.node? id :=
        linked.nodeWithin_eq (Nat.le_succ_of_le (arena.weight_le_size id)) (arena.weight_le_size id)
      have whole : arena.nodeWithin arena.size = arena.node? := rfl
      rw [← deeper, nodeWithin, found, children, whole]
      cases held : node.content <;> simp [held]

end WellLinked

end Arena

end HtmlConformance
