import HtmlConformance.Proofs.Arena.Reading
import HtmlConformance.Proofs.Check.Recheck
import HtmlConformance.Proofs.Traversal

namespace HtmlConformance

/-! The pass over numbered nodes is the recursive pass over nested ones: it visits the
elements in document order, and what it does at one node leaves all others as they are. -/

/-! ## Ids of subtrees -/

namespace Node

mutual

theorem bounds_of_mem_elementIds (node : Node) (start : Nat) {id : Nat}
    (member : id ∈ elementIds start node) : start ≤ id ∧ id < start + node.count := by
  cases node with
  | element head children =>
      rw [count]
      rcases List.mem_cons.mp member with rfl | below
      · omega
      · have bounds := bounds_of_mem_elementIdsAll children (start + 1) below
        omega
  | text content => cases member
  | comment content => cases member

theorem bounds_of_mem_elementIdsAll (nodes : List Node) (start : Nat) {id : Nat}
    (member : id ∈ elementIdsAll start nodes) :
    start ≤ id ∧ id < start + countAll nodes := by
  cases nodes with
  | nil => cases member
  | cons node rest =>
      rw [countAll]
      rcases List.mem_append.mp member with here | later
      · have bounds := bounds_of_mem_elementIds node start here
        omega
      · have bounds := bounds_of_mem_elementIdsAll rest (start + node.count) later
        omega

end

@[simp] theorem count_validate (hook : IdRepair) (pass : Pass) (node : Node) :
    (node.validate hook pass).1.count = node.count := by
  rw [validate_eq, count_mapElements]

@[simp] theorem countAll_validateAll (hook : IdRepair) (pass : Pass) (nodes : List Node) :
    countAll (validateAll hook pass nodes).1 = countAll nodes := by
  rw [validateAll_eq, countAll_mapElementsAll]

@[simp] theorem starts_validateAll (hook : IdRepair) (pass : Pass) (nodes : List Node)
    (start : Nat) : starts start (validateAll hook pass nodes).1 = starts start nodes := by
  induction nodes generalizing start pass with
  | nil => rfl
  | cons node rest induction =>
      simp only [validateAll, starts, count_validate]
      rw [induction]

end Node

namespace Arena

variable {hook : IdRepair}

/-! ## One visit -/

theorem visit_of_view {arena : Arena} {id : NodeId} {element : Element}
    {children : List NodeId} (pass : Pass)
    (view : arena.view? id = some (.element element, children)) :
    visit hook (arena, pass) id =
      (arena.setContent id (.element (pass.visit hook element).1),
        (pass.visit hook element).2) := by
  simp [visit, element?_of_view view]

theorem view?_visit_of_ne (progress : Arena × Pass) {id other : NodeId}
    (different : id ≠ other) :
    (visit hook progress id).1.view? other = progress.1.view? other := by
  unfold visit
  split
  · rfl
  · exact view?_setContent_of_ne different _

theorem size_visit (progress : Arena × Pass) (id : NodeId) :
    (visit hook progress id).1.size = progress.1.size := by
  unfold visit
  split
  · rfl
  · exact size_modify _

/-! ## Many visits -/

theorem view?_foldl_visit (ids : List NodeId) (progress : Arena × Pass) {other : NodeId}
    (outside : other ∉ ids) :
    (ids.foldl (visit hook) progress).1.view? other = progress.1.view? other := by
  induction ids generalizing progress with
  | nil => rfl
  | cons id rest induction =>
      rw [List.mem_cons, not_or] at outside
      rw [List.foldl_cons, induction _ outside.2, view?_visit_of_ne progress (Ne.symm outside.1)]

theorem size_foldl_visit (ids : List NodeId) (progress : Arena × Pass) :
    (ids.foldl (visit hook) progress).1.size = progress.1.size := by
  induction ids generalizing progress with
  | nil => rfl
  | cons id rest induction => rw [List.foldl_cons, induction, size_visit]

mutual

/-- To visit the elements of a subtree is to validate it in its place. -/
theorem foldl_visit_stores (node : Node) (start : Nat) (arena : Arena) (pass : Pass)
    (stored : arena.Stores start node) :
    ((Node.elementIds start node).foldl (visit hook) (arena, pass)).1.Stores start
        (node.validate hook pass).1 ∧
      ((Node.elementIds start node).foldl (visit hook) (arena, pass)).2 =
        (node.validate hook pass).2 := by
  cases node with
  | element head children =>
      let entered := arena.setContent start (.element (pass.visit hook head).1)
      have view : entered.view? start =
          some (.element (pass.visit hook head).1, Node.starts (start + 1) children) :=
        view?_setContent_self stored.1 _
      have below : entered.StoresAll (start + 1) children := by
        refine StoresAll.congr children (start + 1) ?_ stored.2
        intro id lower _
        exact view?_setContent_of_ne (Nat.ne_of_lt lower) _
      have above : start ∉ Node.elementIdsAll (start + 1) children := by
        intro member
        have bounds := Node.bounds_of_mem_elementIdsAll children (start + 1) member
        omega
      rcases foldl_visit_storesAll children (start + 1) entered (pass.visit hook head).2 below
        with ⟨placed, left⟩
      rw [Node.elementIds, List.foldl_cons, visit_of_view pass stored.1]
      refine ⟨⟨?_, placed⟩, left⟩
      rw [view?_foldl_visit _ _ above, Node.starts_validateAll]
      exact view
  | text content => exact ⟨stored, rfl⟩
  | comment content => exact ⟨stored, rfl⟩

theorem foldl_visit_storesAll (nodes : List Node) (start : Nat) (arena : Arena) (pass : Pass)
    (stored : arena.StoresAll start nodes) :
    ((Node.elementIdsAll start nodes).foldl (visit hook) (arena, pass)).1.StoresAll start
        (Node.validateAll hook pass nodes).1 ∧
      ((Node.elementIdsAll start nodes).foldl (visit hook) (arena, pass)).2 =
        (Node.validateAll hook pass nodes).2 := by
  cases nodes with
  | nil => exact ⟨trivial, rfl⟩
  | cons node rest =>
      rcases foldl_visit_stores node start arena pass stored.1 with ⟨first, between⟩
      let middle := (Node.elementIds start node).foldl (visit hook) (arena, pass)
      have later : middle.1.StoresAll (start + node.count) rest := by
        refine StoresAll.congr rest _ ?_ stored.2
        intro id lower _
        apply view?_foldl_visit
        intro member
        have bounds := Node.bounds_of_mem_elementIds node start member
        omega
      rcases foldl_visit_storesAll rest (start + node.count) middle.1 middle.2 later with
        ⟨others, left⟩
      rw [Node.elementIdsAll, List.foldl_append, Node.validateAll]
      simp only [← between]
      refine ⟨⟨?_, ?_⟩, left⟩
      · refine Stores.congr _ start ?_ first
        intro id _ upper
        apply view?_foldl_visit
        intro member
        have bounds := Node.bounds_of_mem_elementIdsAll rest (start + node.count) member
        rw [Node.count_validate] at upper
        omega
      · rw [Node.count_validate]
        exact others

end

/-! ## A whole pass -/

variable {arena : Arena} {nodes : List Node}

theorem Represents.elementsFrom_root (represents : arena.Represents nodes) :
    arena.elementsFrom Arena.root = Node.elementIdsAll 1 nodes := by
  rw [elementsFrom, represents.elementsFrom?_root, Option.getD_some]

theorem Represents.validate (represents : arena.Represents nodes) (hook : IdRepair)
    (pass : Pass) :
    (arena.validate hook pass).1.Represents (Node.validateAll hook pass nodes).1 ∧
      (arena.validate hook pass).2 = (Node.validateAll hook pass nodes).2 := by
  rcases foldl_visit_storesAll nodes 1 arena pass represents.stored with
    ⟨stored, left⟩
  rw [Arena.validate, represents.elementsFrom_root]
  refine ⟨⟨?_, ?_, stored⟩, left⟩
  · rw [Node.starts_validateAll, ← represents.root]
    apply view?_foldl_visit
    intro member
    have bounds := Node.bounds_of_mem_elementIdsAll nodes 1 member
    exact absurd bounds.1 (Nat.not_succ_le_zero 0)
  · rw [size_foldl_visit, represents.size, Node.countAll_validateAll]

/-- The walk over the arena that is built from nodes ends, and validating what it finds is
the recursive pass over the nodes: the same nodes come out, with the same state, diagnostics
and warnings, and only attribute lists may have changed. -/
theorem validate_ofNodes (hook : IdRepair.BuiltIn) (pass : Pass) (nodes : List Node) :
    ((ofNodes nodes).elementsFrom? Arena.root).isSome = true ∧
      ((ofNodes nodes).validate hook.rule pass).1.toNodes =
        (Node.validateAll hook.rule pass nodes).1 ∧
      ((ofNodes nodes).validate hook.rule pass).2 =
        (Node.validateAll hook.rule pass nodes).2 ∧
      Node.outlineAll (Node.validateAll hook.rule pass nodes).1 = Node.outlineAll nodes := by
  have built := represents_ofNodes nodes
  rcases built.validate hook.rule pass with ⟨validated, left⟩
  refine ⟨?_, validated.toNodes_eq, left, ?_⟩
  · rw [built.elementsFrom?_root, Option.isSome_some]
  · rw [Node.validateAll_eq]
    apply Node.outlineAll_mapElementsAll
    intro element
    exact element.tag_repair pass.state.options hook

/-! ## A first pass -/

/-- A pass that starts afresh on the document built from the nodes. -/
def firstPass (options : Options) (hook : IdRepair) (nodes : List Node) : Arena × Pass :=
  (ofNodes nodes).validate hook (.start options)

variable (options : Options) (hook : IdRepair) (nodes : List Node)

theorem represents_firstPass :
    (firstPass options hook nodes).1.Represents
      (Node.mapElementsAll (fun element => element.repair options hook) nodes) := by
  have validated := ((represents_ofNodes nodes).validate hook (.start options)).1
  rwa [Node.validateAll_eq] at validated

theorem firstPass_snd :
    (firstPass options hook nodes).2 =
      (Pass.start options).absorb (Node.findingsAll options hook nodes) := by
  rw [firstPass, ((represents_ofNodes nodes).validate hook (.start options)).2,
    Node.validateAll_eq]
  rfl

theorem versions_firstPass :
    (firstPass options hook nodes).2.state.versions =
      (Node.findingsAll options hook nodes).allowed := by
  rw [firstPass_snd, Pass.versions_absorb_start]

end Arena

end HtmlConformance
