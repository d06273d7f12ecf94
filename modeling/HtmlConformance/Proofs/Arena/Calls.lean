import HtmlConformance.Proofs.Arena.Links

namespace HtmlConformance

/-! Runs of the calls that build a document, in any order and with any arguments. What holds
whatever the calls are: every link leads to a node, a parent lists its child, and siblings
stand side by side in some list of children. -/

/-- A call that adds to a document. -/
inductive Call where
  | alloc (content : NodeContent)
  | append (parent child : NodeId)
  | appendElement (parent : NodeId) (element : Element)

namespace Call

def perform (arena : Arena) : Call → Except ArenaError Arena
  | alloc content => .ok (arena.alloc content).2
  | append parent child => arena.append parent child
  | appendElement parent element => Prod.snd <$> arena.appendElement parent element

/-- The document after a call; one that fails gives back no other document. -/
def after (arena : Arena) (call : Call) : Arena :=
  match call.perform arena with
  | .ok changed => changed
  | .error _ => arena

end Call

namespace Arena

def afterAll (arena : Arena) (calls : List Call) : Arena := calls.foldl Call.after arena

variable {arena : Arena} {parent child : NodeId}

/-! ## What a call answers -/

theorem append_eq (arena : Arena) (parent child : NodeId) :
    arena.append parent child =
      if arena.size ≤ parent then .error (.noSuchNode parent)
      else if arena.size ≤ child then .error (.noSuchNode child)
      else .ok (arena.link parent child) := by
  unfold append requireNode
  by_cases above : arena.size ≤ parent
  · rw [if_neg (Nat.not_lt.mpr above), if_pos above]
    rfl
  · by_cases below : arena.size ≤ child
    · rw [if_pos (Nat.not_le.mp above), if_neg (Nat.not_lt.mpr below), if_neg above, if_pos below]
      rfl
    · rw [if_pos (Nat.not_le.mp above), if_pos (Nat.not_le.mp below), if_neg above, if_neg below]
      rfl

theorem appendElement_eq (arena : Arena) (parent : NodeId) (element : Element) :
    arena.appendElement parent element =
      if arena.size ≤ parent then .error (.noSuchNode parent)
      else .ok (arena.size, (arena.alloc (.element element)).2.link parent arena.size) := by
  unfold appendElement requireNode
  by_cases above : arena.size ≤ parent
  · rw [if_neg (Nat.not_lt.mpr above), if_pos above]
    rfl
  · rw [if_pos (Nat.not_le.mp above), if_neg above]
    rfl

theorem append_eq_ok_iff {linked : Arena} :
    arena.append parent child = .ok linked ↔
      parent < arena.size ∧ child < arena.size ∧ linked = arena.link parent child := by
  rw [append_eq]
  split_ifs <;> grind

/-- The missing parent is the one that is reported where both nodes are missing. -/
theorem append_eq_error_iff {error : ArenaError} :
    arena.append parent child = .error error ↔
      (arena.size ≤ parent ∧ error = .noSuchNode parent) ∨
        (parent < arena.size ∧ arena.size ≤ child ∧ error = .noSuchNode child) := by
  rw [append_eq]
  split_ifs <;> grind

theorem appendElement_eq_ok_iff {element : Element} {result : NodeId × Arena} :
    arena.appendElement parent element = .ok result ↔
      parent < arena.size ∧
        result = (arena.size, (arena.alloc (.element element)).2.link parent arena.size) := by
  rw [appendElement_eq]
  split_ifs <;> grind

theorem appendElement_eq_error_iff {element : Element} {error : ArenaError} :
    arena.appendElement parent element = .error error ↔
      arena.size ≤ parent ∧ error = .noSuchNode parent := by
  rw [appendElement_eq]
  split_ifs <;> grind

end Arena

/-! ## All that a call can do -/

/-- A call leaves the document as it is, adds a node that stands nowhere, or makes a node the
last child of a node, whether it is there already or is added first. -/
theorem Call.after_cases (arena : Arena) (call : Call) :
    call.after arena = arena ∨
      (∃ content, call.after arena = (arena.alloc content).2) ∨
      (∃ parent child, call = .append parent child ∧ parent < arena.size ∧
        child < arena.size ∧ call.after arena = arena.link parent child) ∨
      (∃ parent content, parent < arena.size ∧
        call.after arena = (arena.alloc content).2.link parent arena.size) := by
  cases call with
  | alloc content => exact .inr (.inl ⟨content, rfl⟩)
  | append parent child =>
      rw [after, perform]
      cases answer : arena.append parent child with
      | error error => exact .inl rfl
      | ok linked =>
          rcases Arena.append_eq_ok_iff.mp answer with ⟨above, below, rfl⟩
          exact .inr (.inr (.inl ⟨parent, child, rfl, above, below, rfl⟩))
  | appendElement parent element =>
      rw [after, perform]
      cases answer : arena.appendElement parent element with
      | error error => exact .inl rfl
      | ok result =>
          rcases Arena.appendElement_eq_ok_iff.mp answer with ⟨above, rfl⟩
          exact .inr (.inr (.inr ⟨parent, .element element, above, rfl⟩))

/-- What is kept where a node is added, and where one node becomes the last child of another, is
kept in every run of calls. -/
theorem Arena.afterAll_keeps (holds : Arena → Prop)
    (alloc : ∀ {arena} content, holds arena → holds (arena.alloc content).2)
    (link : ∀ {arena parent child}, parent < arena.size → child < arena.size → holds arena →
      holds (arena.link parent child))
    {arena : Arena} (start : holds arena) (calls : List Call) : holds (arena.afterAll calls) := by
  induction calls generalizing arena with
  | nil => exact start
  | cons call rest induction =>
      apply induction
      rcases call.after_cases arena with same | ⟨content, grown⟩ |
        ⟨parent, child, _, above, below, linked⟩ | ⟨parent, content, above, added⟩
      · rw [same]
        exact start
      · rw [grown]
        exact alloc content start
      · rw [linked]
        exact link above below start
      · rw [added]
        apply link _ _ (alloc content start)
        · rw [size_alloc]
          exact Nat.lt_succ_of_lt above
        · rw [size_alloc]
          exact Nat.lt_succ_self arena.size

end HtmlConformance
