import HtmlConformance.Proofs.Arena.Anchored

namespace HtmlConformance

/-! Documents that are built with care: a node is appended only where it stands nowhere yet, and
never below itself. In such a document all links agree with each other, and the chain of parents
of every node ends. -/

namespace Arena

/-- The node some steps up the chain of parents. -/
def ancestor? (arena : Arena) : (steps : Nat) → NodeId → Option NodeId
  | 0, id => some id
  | steps + 1, id => (arena.parent? id).bind (arena.ancestor? steps)

/-- The chain of parents of a node leads to the other, which may be the node itself. -/
def AtOrBelow (arena : Arena) (id top : NodeId) : Prop :=
  ∃ steps, arena.ancestor? steps id = some top

structure WellLinked (arena : Arena) : Prop where
  mem_children_iff : ∀ {parent child},
    child ∈ arena.children parent ↔ arena.parent? child = some parent
  nodup : ∀ parent, (arena.children parent).toList.Nodup
  beside : ∀ {parent before after}, arena.Adjacent parent before after →
    arena.next? before = some after ∧ arena.previous? after = some before
  first : ∀ {parent child}, (arena.children parent)[0]? = some child →
    arena.previous? child = none
  last : ∀ {parent child}, (arena.children parent).back? = some child → arena.next? child = none
  free : ∀ {id}, arena.parent? id = none → arena.next? id = none ∧ arena.previous? id = none
  document : (arena.get? root).map ArenaNode.content = some .document
  top : arena.parent? root = none
  grounded : ∀ id, ∃ steps, arena.ancestor? steps id = none

end Arena

/-- A call that appends a node does so with care. One that names a missing node fails. -/
def Call.Careful (arena : Arena) : Call → Prop
  | append parent child =>
      parent < arena.size → child < arena.size →
        child ≠ Arena.root ∧ arena.parent? child = none ∧ ¬ arena.AtOrBelow parent child
  | _ => True

def Call.CarefulAll (arena : Arena) : List Call → Prop
  | [] => True
  | call :: rest => call.Careful arena ∧ CarefulAll (call.after arena) rest

namespace Arena

variable {arena other : Arena} {parent child : NodeId}

/-! ## Chains of parents -/

theorem ancestor?_congr (same : ∀ id, other.parent? id = arena.parent? id) (steps : Nat)
    (id : NodeId) : other.ancestor? steps id = arena.ancestor? steps id := by
  induction steps generalizing id with
  | zero => rfl
  | succ steps induction =>
      rw [ancestor?, ancestor?, same]
      exact congrArg (Option.bind _) (funext induction)

theorem eq_or_parent_of_ancestor? {steps : Nat} {id top : NodeId}
    (leads : arena.ancestor? steps id = some top) :
    id = top ∨ ∃ below, arena.parent? below = some top := by
  induction steps generalizing id with
  | zero => exact .inl (Option.some.inj leads)
  | succ steps induction =>
      rcases Option.bind_eq_some_iff.mp leads with ⟨above, linked, leads⟩
      rcases induction leads with rfl | found
      · exact .inr ⟨id, linked⟩
      · exact .inr found

theorem AtOrBelow.of_parent {id above top : NodeId} (linked : arena.parent? id = some above)
    (leads : arena.AtOrBelow above top) : arena.AtOrBelow id top := by
  obtain ⟨steps, leads⟩ := leads
  exact ⟨steps + 1, by rw [ancestor?, linked, Option.bind_some, leads]⟩

/-- A chain that does not meet the appended node is as it was. -/
theorem ancestor?_link_of_not_below (below : child < arena.size) {id : NodeId}
    (apart : ¬ arena.AtOrBelow id child) (steps : Nat) :
    (arena.link parent child).ancestor? steps id = arena.ancestor? steps id := by
  induction steps generalizing id with
  | zero => rfl
  | succ steps induction =>
      have different : child ≠ id := by
        rintro rfl
        exact apart ⟨0, rfl⟩
      rw [ancestor?, ancestor?, parent?_link id below, if_neg different]
      cases linked : arena.parent? id with
      | none => rfl
      | some above => exact induction fun leads => apart (.of_parent linked leads)

/-- A chain that meets the appended node goes on with the chain of the parent, which ends. -/
theorem grounded_link (below : child < arena.size) (apart : ¬ arena.AtOrBelow parent child)
    (grounded : ∀ id, ∃ steps, arena.ancestor? steps id = none) (id : NodeId) :
    ∃ steps, (arena.link parent child).ancestor? steps id = none := by
  obtain ⟨steps, ends⟩ := grounded id
  induction steps generalizing id with
  | zero => cases ends
  | succ steps induction =>
      by_cases same : child = id
      · obtain ⟨more, parentEnds⟩ := grounded parent
        refine ⟨more + 1, ?_⟩
        rw [ancestor?, parent?_link id below, if_pos same, Option.bind_some,
          ancestor?_link_of_not_below below apart, parentEnds]
      · cases linked : arena.parent? id with
        | none =>
            exact ⟨1, by rw [ancestor?, parent?_link id below, if_neg same, linked]; rfl⟩
        | some above =>
            rw [ancestor?, linked, Option.bind_some] at ends
            obtain ⟨more, aboveEnds⟩ := induction above ends
            refine ⟨more + 1, ?_⟩
            rw [ancestor?, parent?_link id below, if_neg same, linked, Option.bind_some, aboveEnds]

/-! ## One call -/

namespace WellLinked

theorem lt_of_mem (linked : arena.WellLinked) (member : child ∈ arena.children parent) :
    child < arena.size :=
  lt_size_of_parent? (linked.mem_children_iff.mp member)

/-- A node is listed by one parent only. -/
theorem eq_of_mem (linked : arena.WellLinked) {place : NodeId}
    (here : child ∈ arena.children parent) (there : child ∈ arena.children place) :
    parent = place :=
  Option.some.inj
    ((linked.mem_children_iff.mp here).symm.trans (linked.mem_children_iff.mp there))

theorem ne_of_free (linked : arena.WellLinked) {id : NodeId} (free : arena.parent? child = none)
    (member : id ∈ arena.children parent) : child ≠ id := by
  rintro rfl
  rw [linked.mem_children_iff, free] at member
  cases member

theorem empty : Arena.empty.WellLinked where
  mem_children_iff {parent child} := by
    have above := (links_empty parent).2.1
    have below := (links_empty child).1
    simp [above, below]
  nodup parent := by simp [links_empty]
  beside {parent before after} beside := by
    have member := beside.before_mem
    simp [links_empty] at member
  first {parent child} starts := by simp [links_empty] at starts
  last {parent child} ends := by simp [links_empty] at ends
  free {id} _ := (links_empty id).2.2
  document := rfl
  top := rfl
  grounded id := ⟨1, by rw [ancestor?, (links_empty id).1]; rfl⟩

theorem alloc (linked : arena.WellLinked) (content : NodeContent) :
    (arena.alloc content).2.WellLinked where
  mem_children_iff {parent child} := by
    rw [children_alloc, parent?_alloc]
    exact linked.mem_children_iff
  nodup parent := by
    rw [children_alloc]
    exact linked.nodup parent
  beside {parent before after} beside := by
    rw [next?_alloc, previous?_alloc]
    exact linked.beside (adjacent_alloc.mp beside)
  first {parent child} starts := by
    rw [children_alloc] at starts
    rw [previous?_alloc]
    exact linked.first starts
  last {parent child} ends := by
    rw [children_alloc] at ends
    rw [next?_alloc]
    exact linked.last ends
  free {id} unplaced := by
    rw [parent?_alloc] at unplaced
    rw [next?_alloc, previous?_alloc]
    exact linked.free unplaced
  document := by
    have present : root ≠ arena.size := by
      intro fresh
      have missing := get?_eq_none_iff.mpr (Nat.le_of_eq fresh.symm)
      have document := linked.document
      rw [missing] at document
      cases document
    rw [get?_alloc, if_neg present]
    exact linked.document
  top := by
    rw [parent?_alloc]
    exact linked.top
  grounded id := by
    obtain ⟨steps, ends⟩ := linked.grounded id
    refine ⟨steps, ?_⟩
    rw [ancestor?_congr (arena.parent?_alloc content), ends]

/-! ### Appending a node with care

The only list that changes is the parent's; the only links that change are those of the node, which
had none, and the next link of the last child, which had none either. -/

theorem next?_link (linked : arena.WellLinked) (id : NodeId) :
    (arena.link parent child).next? id =
      if (arena.children parent).back? = some id then some child else arena.next? id :=
  Arena.next?_link id fun _ ends => linked.lt_of_mem (Array.mem_of_back? ends)

theorem mem_children_link_iff (linked : arena.WellLinked) (above : parent < arena.size)
    (below : child < arena.size) (free : arena.parent? child = none) {place id : NodeId} :
    id ∈ (arena.link parent child).children place ↔
      (arena.link parent child).parent? id = some place := by
  rw [children_link place above, parent?_link id below]
  by_cases same : child = id
  · subst same
    have unlisted : child ∉ arena.children place := fun member =>
      linked.ne_of_free free member rfl
    by_cases here : parent = place <;> simp [here, unlisted]
  · by_cases here : parent = place
    · simp [here, same, Array.mem_push, linked.mem_children_iff, Ne.symm same]
    · simp [here, same, linked.mem_children_iff]

theorem nodup_link (linked : arena.WellLinked) (above : parent < arena.size)
    (free : arena.parent? child = none) (place : NodeId) :
    ((arena.link parent child).children place).toList.Nodup := by
  rw [children_link place above]
  split
  · rw [Array.toList_push, List.nodup_append]
    refine ⟨linked.nodup place, List.nodup_singleton child, ?_⟩
    intro id member last lastMember
    rw [List.mem_singleton.mp lastMember]
    exact (linked.ne_of_free free (Array.mem_toList_iff.mp member)).symm
  · exact linked.nodup place

theorem beside_link (linked : arena.WellLinked) (above : parent < arena.size)
    (below : child < arena.size) (free : arena.parent? child = none)
    {place before after : NodeId}
    (beside : (arena.link parent child).Adjacent place before after) :
    (arena.link parent child).next? before = some after ∧
      (arena.link parent child).previous? after = some before := by
  rw [linked.next?_link, previous?_link after below]
  rcases (adjacent_link above).mp beside with old | ⟨rfl, ends, rfl⟩
  · have links := linked.beside old
    have notLast : (arena.children parent).back? ≠ some before := by
      intro ends
      rw [linked.last ends] at links
      cases links.1
    rw [if_neg notLast, if_neg (linked.ne_of_free free old.after_mem)]
    exact links
  · rw [if_pos ends, if_pos rfl, ends, Option.some_or]
    exact ⟨rfl, rfl⟩

theorem first_link (linked : arena.WellLinked) (above : parent < arena.size)
    (below : child < arena.size) (free : arena.parent? child = none) {place id : NodeId}
    (starts : ((arena.link parent child).children place)[0]? = some id) :
    (arena.link parent child).previous? id = none := by
  have old (was : (arena.children place)[0]? = some id) :
      (arena.link parent child).previous? id = none := by
    rw [previous?_link id below,
      if_neg (linked.ne_of_free free (Array.mem_of_getElem? was)), linked.first was]
  rw [children_link place above] at starts
  split at starts
  next here =>
    subst here
    rw [Array.getElem?_push] at starts
    split at starts
    next empty =>
      have none : (arena.children parent).back? = none := by
        rw [Array.eq_empty_of_size_eq_zero empty.symm, Array.back?_empty]
      rw [previous?_link id below, none, Option.none_or, ← Option.some.inj starts,
        (linked.free free).2, ite_self]
    next => exact old starts
  next => exact old starts

theorem last_link (linked : arena.WellLinked) (above : parent < arena.size)
    (free : arena.parent? child = none) {place id : NodeId}
    (ends : ((arena.link parent child).children place).back? = some id) :
    (arena.link parent child).next? id = none := by
  rw [children_link place above] at ends
  rw [linked.next?_link]
  split at ends
  next here =>
    rw [Array.back?_push] at ends
    have different : (arena.children parent).back? ≠ some id := by
      intro last
      exact linked.ne_of_free free (Array.mem_of_back? last) (Option.some.inj ends)
    rw [if_neg different, ← Option.some.inj ends]
    exact (linked.free free).1
  next elsewhere =>
    have member := Array.mem_of_back? ends
    rw [if_neg fun last => elsewhere (linked.eq_of_mem (Array.mem_of_back? last) member)]
    exact linked.last ends

theorem free_link (linked : arena.WellLinked) (below : child < arena.size) {id : NodeId}
    (unplaced : (arena.link parent child).parent? id = none) :
    (arena.link parent child).next? id = none ∧
      (arena.link parent child).previous? id = none := by
  rw [parent?_link id below] at unplaced
  split at unplaced
  next => cases unplaced
  next different =>
    have notLast : (arena.children parent).back? ≠ some id := by
      intro ends
      rw [linked.mem_children_iff.mp (Array.mem_of_back? ends)] at unplaced
      cases unplaced
    rw [linked.next?_link, previous?_link id below, if_neg notLast, if_neg different]
    exact linked.free unplaced

theorem link (linked : arena.WellLinked) (above : parent < arena.size) (below : child < arena.size)
    (inner : child ≠ root) (free : arena.parent? child = none)
    (apart : ¬ arena.AtOrBelow parent child) : (arena.link parent child).WellLinked where
  mem_children_iff := linked.mem_children_link_iff above below free
  nodup := linked.nodup_link above free
  beside := linked.beside_link above below free
  first := linked.first_link above below free
  last := linked.last_link above free
  free := linked.free_link below
  document := by
    rw [content_link]
    exact linked.document
  top := by
    rw [parent?_link root below, if_neg inner]
    exact linked.top
  grounded := grounded_link below apart linked.grounded

/-- A node that was just added stands nowhere and is above no node. -/
theorem link_alloc (linked : arena.WellLinked) (above : parent < arena.size)
    (content : NodeContent) : ((arena.alloc content).2.link parent arena.size).WellLinked := by
  have grown := linked.alloc content
  have noParent : (arena.alloc content).2.parent? arena.size = none := by
    rw [parent?_alloc, parent?, get?_eq_none_iff.mpr (Nat.le_refl _)]
    rfl
  refine grown.link ?_ ?_ ?_ noParent ?_
  · simpa using Nat.lt_succ_of_lt above
  · simp
  · exact (Nat.ne_of_lt (Nat.zero_lt_of_lt above)).symm
  · rintro ⟨steps, leads⟩
    rcases eq_or_parent_of_ancestor? leads with same | ⟨lower, lowest⟩
    · exact Nat.ne_of_lt above same
    · rw [parent?_alloc] at lowest
      exact Nat.lt_irrefl _ (lt_size_of_mem_children (linked.mem_children_iff.mpr lowest))

theorem after (linked : arena.WellLinked) {call : Call} (careful : call.Careful arena) :
    (call.after arena).WellLinked := by
  rcases call.after_cases arena with same | ⟨content, grown⟩ |
    ⟨parent, child, rfl, above, below, appended⟩ | ⟨parent, content, above, added⟩
  · rw [same]
    exact linked
  · rw [grown]
    exact linked.alloc content
  · rw [appended]
    obtain ⟨inner, free, apart⟩ := careful above below
    exact linked.link above below inner free apart
  · rw [added]
    exact linked.link_alloc above content

/-! ## A careful run -/

theorem afterAll (linked : arena.WellLinked) {calls : List Call}
    (careful : Call.CarefulAll arena calls) : (arena.afterAll calls).WellLinked := by
  induction calls generalizing arena with
  | nil => exact linked
  | cons call rest induction => exact induction (linked.after careful.1) careful.2

end WellLinked

/-- Whatever careful calls a document is built by, its links agree with each other. -/
theorem careful_run_wellLinked (calls : List Call) (careful : Call.CarefulAll empty calls) :
    (empty.afterAll calls).WellLinked :=
  WellLinked.empty.afterAll careful

/-- A subtree that is built apart from the document and put into it at last, with a call that
fails on the way. -/
theorem careful_run_wellLinked_apart :
    let calls : List Call :=
      [.alloc (.text "left"), .alloc (.element ⟨"p", []⟩), .append 2 1,
        .appendElement 2 ⟨"br", []⟩, .append 9 2, .append root 2]
    Call.CarefulAll empty calls ∧ (empty.afterAll calls).WellLinked := by
  intro calls
  have careful : Call.CarefulAll empty calls := by
    refine ⟨trivial, trivial, ?_, trivial, ?_, ?_, trivial⟩
    · refine fun _ _ => ⟨by decide, rfl, ?_⟩
      rintro ⟨steps, leads⟩
      cases steps <;> cases leads
    · intro missing
      exact absurd missing (by decide)
    · refine fun _ _ => ⟨by decide, rfl, ?_⟩
      rintro ⟨steps, leads⟩
      cases steps <;> cases leads
  exact ⟨careful, careful_run_wellLinked calls careful⟩

end Arena

end HtmlConformance
