import HtmlConformance.Proofs.Arena.Anchored

namespace HtmlConformance

/-! The same calls on a document that is changed in place, write by write. Such a call could
break off halfway, at a node that is not there or with an error after its first write. None does
on a document that was built by these calls: links lead to nodes only, and errors come first. -/

/-- Why a call breaks off: it answers with an error, or it takes for granted a node that is not
there. -/
inductive BreakOff where
  | error (error : ArenaError)
  | noNode (id : NodeId)

/-- Work on a document in place. Where it breaks off, what was written by then stays. -/
def InPlace (α : Type) : Type := Arena → Except BreakOff α × Arena

namespace InPlace

variable {α β : Type}

protected def pure (result : α) : InPlace α := fun arena => (.ok result, arena)

protected def bind (first : InPlace α) (next : α → InPlace β) : InPlace β := fun arena =>
  match first arena with
  | (.ok result, changed) => next result changed
  | (.error why, changed) => (.error why, changed)

instance : Monad InPlace where
  pure := InPlace.pure
  bind := InPlace.bind

def requireNode (id : NodeId) : InPlace Unit := fun arena =>
  match arena.requireNode id with
  | .ok () => (.ok (), arena)
  | .error error => (.error (.error error), arena)

def read (id : NodeId) : InPlace ArenaNode := fun arena =>
  match arena.get? id with
  | some node => (.ok node, arena)
  | none => (.error (.noNode id), arena)

def write (id : NodeId) (change : ArenaNode → ArenaNode) : InPlace Unit := fun arena =>
  if id < arena.size then (.ok (), arena.modify id change) else (.error (.noNode id), arena)

def alloc (content : NodeContent) : InPlace NodeId := fun arena =>
  (.ok (arena.alloc content).1, (arena.alloc content).2)

def link (parent child : NodeId) : InPlace Unit := do
  let above ← read parent
  write parent fun node => { node with children := node.children.push child }
  write child fun node => { node with parent := some parent }
  match above.children.back? with
  | none => return ()
  | some sibling =>
      write sibling fun node => { node with next := some child }
      write child fun node => { node with previous := some sibling }

def append (parent child : NodeId) : InPlace Unit := do
  requireNode parent
  requireNode child
  link parent child

def appendElement (parent : NodeId) (element : Element) : InPlace NodeId := do
  requireNode parent
  let id ← alloc (.element element)
  link parent id
  return id

/-! ## One write after another -/

theorem bind_of_ok {first : InPlace α} {next : α → InPlace β} {arena changed : Arena}
    {result : α} (ran : first arena = (.ok result, changed)) :
    (first >>= next) arena = next result changed := by
  change InPlace.bind first next arena = _
  rw [InPlace.bind, ran]

theorem bind_of_error {first : InPlace α} {next : α → InPlace β} {arena changed : Arena}
    {why : BreakOff} (ran : first arena = (.error why, changed)) :
    (first >>= next) arena = (.error why, changed) := by
  change InPlace.bind first next arena = _
  rw [InPlace.bind, ran]

variable {arena : Arena} {parent child id : NodeId}

theorem requireNode_of_lt (present : id < arena.size) :
    requireNode id arena = (.ok (), arena) := by
  rw [requireNode, Arena.requireNode, if_pos present]

theorem requireNode_of_le (missing : arena.size ≤ id) :
    requireNode id arena = (.error (.error (.noSuchNode id)), arena) := by
  rw [requireNode, Arena.requireNode, if_neg (Nat.not_lt.mpr missing)]

theorem read_of_lt (present : id < arena.size) :
    ∃ node, arena.children id = node.children ∧ read id arena = (.ok node, arena) := by
  rcases Option.isSome_iff_exists.mp (Arena.lt_size_iff.mp present) with ⟨node, found⟩
  exact ⟨node, by simp [Arena.children, found], by rw [read, found]⟩

theorem write_of_lt (present : id < arena.size) (change : ArenaNode → ArenaNode) :
    write id change arena = (.ok (), arena.modify id change) := if_pos present

/-- Linking never takes a missing node for granted, as the last child is always there. -/
theorem link_eq (anchored : arena.Anchored) (above : parent < arena.size)
    (below : child < arena.size) : link parent child arena = (.ok (), arena.link parent child) := by
  obtain ⟨node, children, read⟩ := read_of_lt above
  rw [link, bind_of_ok read, bind_of_ok (write_of_lt above _),
    bind_of_ok (write_of_lt (by simpa using below) _), Arena.link, children]
  cases ends : node.children.back? with
  | none => rfl
  | some last =>
      have present := anchored.last_lt (children ▸ ends)
      simp only
      rw [bind_of_ok (write_of_lt (by simpa using present) _)]
      exact write_of_lt (by simpa using below) _

end InPlace

/-! ## Whole calls -/

/-- How a call in place ends: with a result and the changed document, or with an error and the
document as it was. -/
def Arena.settle {α : Type} (arena : Arena) :
    Except ArenaError (α × Arena) → Except BreakOff α × Arena
  | .ok (result, changed) => (.ok result, changed)
  | .error error => (.error (.error error), arena)

namespace InPlace

variable {arena : Arena}

theorem append_eq (anchored : arena.Anchored) (parent child : NodeId) :
    append parent child arena =
      arena.settle ((arena.append parent child).map fun linked => ((), linked)) := by
  rw [append, Arena.append_eq]
  by_cases above : arena.size ≤ parent
  · rw [if_pos above, bind_of_error (requireNode_of_le above)]
    rfl
  · have above' := Nat.not_le.mp above
    rw [if_neg above, bind_of_ok (requireNode_of_lt above')]
    by_cases below : arena.size ≤ child
    · rw [if_pos below, bind_of_error (requireNode_of_le below)]
      rfl
    · have below' := Nat.not_le.mp below
      rw [if_neg below, bind_of_ok (requireNode_of_lt below')]
      exact link_eq anchored above' below'

theorem appendElement_eq (anchored : arena.Anchored) (parent : NodeId) (element : Element) :
    appendElement parent element arena =
      arena.settle (arena.appendElement parent element) := by
  rw [appendElement, Arena.appendElement_eq]
  by_cases above : arena.size ≤ parent
  · rw [if_pos above, bind_of_error (requireNode_of_le above)]
    rfl
  · have above' := Nat.not_le.mp above
    have grown := anchored.alloc (.element element)
    have linked : link parent arena.size (arena.alloc (.element element)).2 =
        (.ok (), (arena.alloc (.element element)).2.link parent arena.size) :=
      link_eq grown (by simpa using Nat.lt_succ_of_lt above') (by simp)
    have added : alloc (.element element) arena =
        (.ok arena.size, (arena.alloc (.element element)).2) := rfl
    rw [if_neg above, bind_of_ok (requireNode_of_lt above'), bind_of_ok added]
    exact bind_of_ok linked

end InPlace

/-! ## Any run of calls -/

namespace Arena

/-- Every id in a link of a node is the id of a node. -/
def LinksExist (arena : Arena) : Prop :=
  ∀ id node, arena.get? id = some node →
    (∀ parent, node.parent = some parent → parent < arena.size) ∧
      (∀ child ∈ node.children, child < arena.size) ∧
      (∀ after, node.next = some after → after < arena.size) ∧
      ∀ before, node.previous = some before → before < arena.size

/-- One list of children is longer by the child at its end, and all others are as before. -/
def GainsChild (arena changed : Arena) (parent child : NodeId) : Prop :=
  ∀ id, changed.children id =
    if parent = id then (arena.children id).push child else arena.children id

theorem Anchored.linksExist {arena : Arena} (anchored : arena.Anchored) : arena.LinksExist := by
  intro id node found
  have children : arena.children id = node.children := by simp [Arena.children, found]
  refine ⟨?_, ?_, ?_, ?_⟩
  · intro parent linked
    have known : arena.parent? id = some parent := by simp [parent?, found, linked]
    exact lt_size_of_mem_children (anchored.of_parent known)
  · intro child member
    exact anchored.child_lt (children ▸ member)
  · intro after linked
    have known : arena.next? id = some after := by simp [next?, found, linked]
    obtain ⟨parent, beside⟩ := anchored.of_next known
    exact anchored.child_lt beside.after_mem
  · intro before linked
    have known : arena.previous? id = some before := by simp [previous?, found, linked]
    obtain ⟨parent, beside⟩ := anchored.of_previous known
    exact anchored.child_lt beside.before_mem

/-- After any run of calls, links lead to nodes, a parent lists its child, and siblings stand
side by side in some list of children. A further call that fails names the first missing node,
has looked up no other and leaves the document as it was; one that appends makes one list of
children longer by one at its end. -/
theorem any_run_anchored (calls : List Call) :
    let arena := empty.afterAll calls
    arena.LinksExist ∧
      (∀ parent child, arena.parent? child = some parent → child ∈ arena.children parent) ∧
      (∀ before after, arena.next? before = some after ∨ arena.previous? after = some before →
        ∃ parent, arena.Adjacent parent before after) ∧
      (∀ parent child,
        InPlace.append parent child arena =
            arena.settle ((arena.append parent child).map fun linked => ((), linked)) ∧
          match arena.append parent child with
          | .error error =>
              (arena.size ≤ parent ∧ error = .noSuchNode parent) ∨
                (parent < arena.size ∧ arena.size ≤ child ∧ error = .noSuchNode child)
          | .ok linked =>
              parent < arena.size ∧ child < arena.size ∧ linked.size = arena.size ∧
                arena.GainsChild linked parent child) ∧
      ∀ parent element,
        InPlace.appendElement parent element arena =
            arena.settle (arena.appendElement parent element) ∧
          match arena.appendElement parent element with
          | .error error => arena.size ≤ parent ∧ error = .noSuchNode parent
          | .ok (id, extended) =>
              parent < arena.size ∧ id = arena.size ∧ extended.size = arena.size + 1 ∧
                arena.GainsChild extended parent id := by
  intro arena
  have anchored : arena.Anchored := anchored_empty.afterAll calls
  refine ⟨anchored.linksExist, fun _ _ => anchored.of_parent, ?_, ?_, ?_⟩
  · rintro before after (linked | linked)
    · exact anchored.of_next linked
    · exact anchored.of_previous linked
  · intro parent child
    refine ⟨InPlace.append_eq anchored parent child, ?_⟩
    cases answer : arena.append parent child with
    | error error => exact append_eq_error_iff.mp answer
    | ok linked =>
        rcases append_eq_ok_iff.mp answer with ⟨above, below, rfl⟩
        exact ⟨above, below, size_link parent child, fun id => children_link id above⟩
  · intro parent element
    refine ⟨InPlace.appendElement_eq anchored parent element, ?_⟩
    cases answer : arena.appendElement parent element with
    | error error => exact appendElement_eq_error_iff.mp answer
    | ok result =>
        rcases appendElement_eq_ok_iff.mp answer with ⟨above, rfl⟩
        refine ⟨above, rfl, by simp, fun id => ?_⟩
        rw [children_link id (by simpa using Nat.lt_succ_of_lt above), children_alloc]

end Arena

end HtmlConformance
