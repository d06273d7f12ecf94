import HtmlConformance.Proofs.Validation

namespace HtmlConformance

/-! A second pass over a document that a first pass has repaired: the document stays as it is,
and the findings differ by what the first pass supplied. -/

/-! ## Joined findings -/

namespace Findings

variable {α : Type} {before after : α → Findings} (list : List α)

theorem xhtml_joinAll_map (same : ∀ entry, (after entry).xhtml = (before entry).xhtml) :
    (joinAll (list.map after)).xhtml = (joinAll (list.map before)).xhtml := by
  induction list with
  | nil => rfl
  | cons head tail induction => simp [same, induction]

theorem defects_joinAll_map (removed : DefectSet)
    (fewer : ∀ entry, (after entry).defects = (before entry).defects \ removed) :
    (joinAll (list.map after)).defects = (joinAll (list.map before)).defects \ removed := by
  induction list with
  | nil => simp
  | cons head tail induction => simp [fewer, induction, FlagSet.union_diff]

theorem allowed_joinAll_map (narrows : α → Bool) (versions : VersionSet)
    (fewer : ∀ entry, (after entry).allowed =
      (before entry).allowed ∩ (if narrows entry then versions else .everything)) :
    (joinAll (list.map after)).allowed =
      (joinAll (list.map before)).allowed ∩
        (if list.any narrows then versions else .everything) := by
  induction list with
  | nil => simp
  | cons head tail induction =>
      have joined : (if narrows head then versions else .everything) ∩
          (if tail.any narrows then versions else .everything) =
          if (head :: tail).any narrows then versions else .everything := by
        rw [List.any_cons]
        cases narrows head <;> cases tail.any narrows <;> simp
      rw [← joined]
      simp only [List.map_cons, joinAll_cons, allowed_append, fewer, induction,
        FlagSet.inter_assoc, FlagSet.inter_left_comm]

end Findings

/-! ## A pass that changes nothing -/

namespace Arena

variable {hook : IdRepair} {arena : Arena}

theorem setContent_of_element? {id : NodeId} {element : Element}
    (held : arena.element? id = some element) :
    arena.setContent id (.element element) = arena := by
  apply congrArg Arena.mk
  apply Array.ext_getElem?
  intro other
  rw [Array.getElem?_modify]
  split
  next same =>
    subst same
    cases found : arena.nodes[id]? with
    | none => rfl
    | some node =>
        have content : node.content = .element element := by
          unfold element? at held
          rw [Arena.get?, found] at held
          cases kind : node.content <;> simp_all
        rw [Option.map_some, ← content]
  next => rfl

mutual

theorem element?_of_stores (node : Node) (start : Nat) (stored : arena.Stores start node)
    {id : Nat} (member : id ∈ Node.elementIds start node) :
    ∃ element ∈ node.elements, arena.element? id = some element := by
  cases node with
  | element head children =>
      rcases List.mem_cons.mp member with rfl | below
      · exact ⟨head, List.mem_cons_self, element?_of_view stored.1⟩
      · rcases element?_of_storesAll children (start + 1) stored.2 below with
          ⟨element, present, held⟩
        exact ⟨element, List.mem_cons_of_mem head present, held⟩
  | text content => cases member
  | comment content => cases member

theorem element?_of_storesAll (nodes : List Node) (start : Nat)
    (stored : arena.StoresAll start nodes) {id : Nat}
    (member : id ∈ Node.elementIdsAll start nodes) :
    ∃ element ∈ Node.elementsAll nodes, arena.element? id = some element := by
  cases nodes with
  | nil => cases member
  | cons node rest =>
      rcases List.mem_append.mp member with here | later
      · rcases element?_of_stores node start stored.1 here with ⟨element, present, held⟩
        exact ⟨element, List.mem_append_left _ present, held⟩
      · rcases element?_of_storesAll rest (start + node.count) stored.2 later with
          ⟨element, present, held⟩
        exact ⟨element, List.mem_append_right _ present, held⟩

end

theorem foldl_visit_of_settled (ids : List NodeId) (pass : Pass)
    (settled : ∀ id ∈ ids, ∃ element, arena.element? id = some element ∧
      element.repair pass.state.options hook = element) :
    (ids.foldl (visit hook) (arena, pass)).1 = arena := by
  induction ids generalizing pass with
  | nil => rfl
  | cons id rest induction =>
      rcases settled id List.mem_cons_self with ⟨element, held, fixed⟩
      have visited : visit hook (arena, pass) id =
          (arena, pass.absorb (element.findings pass.state.options hook)) := by
        simp only [visit, held, Pass.visit_eq, fixed, setContent_of_element? held]
      rw [List.foldl_cons, visited]
      apply induction
      intro later member
      exact settled later (List.mem_cons_of_mem id member)

end Arena

/-! ## Two passes -/

namespace Arena

/-- A pass that starts afresh on the document as the first pass leaves it. -/
def secondPass (options : Options) (hook : IdRepair) (nodes : List Node) : Arena × Pass :=
  (firstPass options hook nodes).1.validate hook (.start options)

section

variable (options : Options) (hook : IdRepair.BuiltIn) (nodes : List Node)

theorem secondPass_fst :
    (secondPass options hook.rule nodes).1 = (firstPass options hook.rule nodes).1 := by
  have repaired := represents_firstPass options hook.rule nodes
  rw [secondPass, Arena.validate, repaired.elementsFrom_root]
  apply foldl_visit_of_settled
  intro id member
  rcases element?_of_storesAll _ 1 repaired.stored member with ⟨element, present, held⟩
  rw [Node.elementsAll_mapElementsAll] at present
  rcases List.mem_map.mp present with ⟨original, _, rfl⟩
  exact ⟨_, held, original.repair_repair options hook⟩

theorem secondPass_snd :
    (secondPass options hook.rule nodes).2 =
      (Pass.start options).absorb (.joinAll ((Node.elementsAll nodes).map fun element =>
        (element.repair options hook.rule).findings options hook.rule)) := by
  have repaired := represents_firstPass options hook.rule nodes
  rw [secondPass, (repaired.validate hook.rule (.start options)).2, Node.validateAll_eq]
  simp only [Node.findingsAll, Node.elementsAll_mapElementsAll, List.map_map]
  rfl

theorem versions_secondPass :
    (secondPass options hook.rule nodes).2.state.versions =
      (firstPass options hook.rule nodes).2.state.versions ∩
        (if (Node.elementsAll nodes).any fun element =>
            element.gainsTypeOrText (element.repair options hook.rule)
          then .standard else .everything) := by
  rw [firstPass_snd, secondPass_snd, Pass.versions_absorb_start, Pass.versions_absorb_start]
  exact Findings.allowed_joinAll_map _ _ _ fun element =>
    (element.rechecked options hook).allowed

end

/-- Repairs are made once, and a second pass confirms them: it leaves the document as it is
and, values aside, raises the diagnostics of the first pass again, element by element and in
the same order, but for those on absent attributes that the first pass has supplied. It
sees the same namespaces and, a missing text that was supplied aside, the same defects. -/
theorem secondPass_confirms (options : Options) (hook : IdRepair.BuiltIn) (nodes : List Node) :
    (secondPass options hook.rule nodes).1 = (firstPass options hook.rule nodes).1 ∧
      (firstPass options hook.rule nodes).1.toNodes =
        Node.mapElementsAll (fun element => element.repair options hook.rule) nodes ∧
      (firstPass options hook.rule nodes).2.diagnostics.toList =
        ((Node.elementsAll nodes).flatMap fun element =>
          (element.findings options hook.rule).diagnostics) ∧
      (secondPass options hook.rule nodes).2.diagnostics.toList.map Diagnostic.withoutValue =
        ((Node.elementsAll nodes).flatMap fun element =>
          (element.findings options hook.rule).diagnostics.filter fun diagnostic =>
            !diagnostic.isAnswered element (element.repair options hook.rule)).map
          Diagnostic.withoutValue ∧
      (secondPass options hook.rule nodes).2.state.isXhtml =
        (firstPass options hook.rule nodes).2.state.isXhtml ∧
      (secondPass options hook.rule nodes).2.state.defects =
        (firstPass options hook.rule nodes).2.state.defects \
          (if options.fallbackAlt.isSome then .only .missingImageAlt else ∅) := by
  have once := firstPass_snd options hook.rule nodes
  have again := secondPass_snd options hook nodes
  refine ⟨secondPass_fst options hook nodes,
    (represents_firstPass options hook.rule nodes).toNodes_eq, ?_, ?_, ?_, ?_⟩
  · rw [once, Pass.diagnostics_absorb_start, Node.findingsAll, Findings.diagnostics_joinAll,
      List.flatMap_map]
  · rw [again, Pass.diagnostics_absorb_start, Findings.diagnostics_joinAll, List.flatMap_map,
      List.map_flatMap, List.map_flatMap]
    congr 1
    funext element
    exact (element.rechecked options hook).diagnostics
  · rw [once, again, Pass.isXhtml_absorb_start, Pass.isXhtml_absorb_start]
    exact Findings.xhtml_joinAll_map _ fun element => (element.rechecked options hook).xhtml
  · rw [once, again, Pass.defects_absorb_start, Pass.defects_absorb_start]
    exact Findings.defects_joinAll_map _ _ fun element => element.defects_repair options hook

/-- A second pass leaves the same versions as the first if and only if the first supplied no
type and no text, or had already ruled out what these rule out. A supplied id needs no
such condition, as it narrows the versions in the pass that supplies it. -/
theorem versions_secondPass_eq_iff (options : Options) (nodes : List Node) :
    (secondPass options .copyName nodes).2.state.versions =
        (firstPass options .copyName nodes).2.state.versions ↔
      (∀ element ∈ Node.elementsAll nodes,
        element.gains (element.repair options .copyName) "type" = false ∧
          element.gains (element.repair options .copyName) "alt" = false) ∨
      ∀ version, (firstPass options .copyName nodes).2.state.versions.permits version = true →
        VersionSet.standard.permits version = true := by
  let supplies (element : Element) : Bool :=
    element.gainsTypeOrText (element.repair options .copyName)
  have narrowed : (secondPass options .copyName nodes).2.state.versions =
      (firstPass options .copyName nodes).2.state.versions ∩
        (if (Node.elementsAll nodes).any supplies then .standard else .everything) :=
    versions_secondPass options .copyName nodes
  have nothing : (Node.elementsAll nodes).any supplies = false ↔
      ∀ element ∈ Node.elementsAll nodes,
        element.gains (element.repair options .copyName) "type" = false ∧
          element.gains (element.repair options .copyName) "alt" = false := by
    simp [supplies, Element.gainsTypeOrText]
  rw [narrowed, ← nothing]
  cases (Node.elementsAll nodes).any supplies with
  | false => simp
  | true =>
      rw [if_pos rfl, FlagSet.inter_eq_left_iff]
      simp [VersionSet.permits]

/-- A type that is supplied to a style sheet rules out nothing before the second pass. -/
theorem versions_secondPass_ne :
    (firstPass {} .copyName [.element ⟨"style", []⟩ []]).2.state.versions = .everything ∧
      (secondPass {} .copyName [.element ⟨"style", []⟩ []]).2.state.versions = .standard ∧
      (secondPass {} .copyName [.element ⟨"style", []⟩ []]).2.state.versions ≠
        (firstPass {} .copyName [.element ⟨"style", []⟩ []]).2.state.versions := by
  have found : (firstPass {} .copyName [.element ⟨"style", []⟩ []]).2.state.versions =
      .everything := by
    rw [versions_firstPass]
    cbv
  have left : (secondPass {} .copyName [.element ⟨"style", []⟩ []]).2.state.versions =
      .standard := by
    have narrowed := versions_secondPass {} .copyName [.element ⟨"style", []⟩ []]
    rw [IdRepair.BuiltIn.rule, found, VersionSet.everything_inter] at narrowed
    rw [narrowed]
    cbv
  refine ⟨found, left, ?_⟩
  rw [found, left]
  decide

end Arena

end HtmlConformance
