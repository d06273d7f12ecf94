import HtmlConformance.Proofs.Check.Repair
import HtmlConformance.Proofs.Traversal

namespace HtmlConformance

/-! The order of visits. A visit has the whole pass before it, but all that it reads there are the
options, and what it leaves there commutes with what any other visit leaves: versions are
intersected, defects united, and the namespace mark is only ever set. -/

/-! ## Visits to a list of elements -/

namespace Pass

/-- Visit elements one after another. Each comes back repaired, together with the diagnostics
that were added while it was visited. -/
def visitAll (hook : IdRepair) (pass : Pass) :
    List Element → List (Element × List Diagnostic) × Pass
  | [] => ([], pass)
  | element :: rest =>
      let (repaired, next) := pass.visit hook element
      let raised := next.diagnostics.toList.drop pass.diagnostics.size
      let (others, last) := visitAll hook next rest
      ((repaired, raised) :: others, last)

variable (hook : IdRepair)

theorem visitAll_eq (pass : Pass) (elements : List Element) :
    pass.visitAll hook elements =
      (elements.map fun element =>
        (element.repair pass.state.options hook,
          (element.findings pass.state.options hook).diagnostics),
        pass.absorb (.joinAll
          (elements.map fun element => element.findings pass.state.options hook))) := by
  induction elements generalizing pass with
  | nil => simp [visitAll]
  | cons element rest induction =>
      simp [visitAll, Pass.visit_eq, induction, absorb_append]

end Pass

/-! ## Commuting -/

namespace State

theorem absorb_append (state : State) (first second : Findings) :
    state.absorb (first ++ second) = (state.absorb first).absorb second := by
  simp [absorb, FlagSet.inter_assoc, FlagSet.union_assoc, Bool.or_assoc]

/-- The findings of two checks may be taken in either way round. -/
theorem absorb_comm (state : State) (first second : Findings) :
    (state.absorb first).absorb second = (state.absorb second).absorb first := by
  simp only [← absorb_append]
  simp [absorb, FlagSet.inter_comm first.allowed, FlagSet.union_comm first.defects,
    Bool.or_comm first.xhtml]

instance : RightCommutative absorb := ⟨absorb_comm⟩

theorem absorb_joinAll (state : State) (list : List Findings) :
    state.absorb (.joinAll list) = list.foldl absorb state := by
  induction list generalizing state with
  | nil => simp [absorb]
  | cons head tail induction =>
      rw [Findings.joinAll_cons, absorb_append, induction, List.foldl_cons]

theorem absorb_joinAll_perm (state : State) {left right : List Findings}
    (perm : left.Perm right) :
    state.absorb (.joinAll left) = state.absorb (.joinAll right) := by
  rw [absorb_joinAll, absorb_joinAll]
  exact perm.foldl_eq state

end State

/-! ## Independence -/

namespace Pass

/-- What a visit does to an element, and what it adds to the pass, is settled by the element,
the options and the rule for ids, whatever the state it is made in. So the same elements,
visited in any order from the same state, come back with the same repairs and the same
diagnostics each, and leave the same state. -/
theorem visits_independent (hook : IdRepair.BuiltIn) (options : Options) :
    ∃ (repaired : Element → Element) (raised : Element → List Diagnostic)
      (allowed : Element → VersionSet) (defects : Element → DefectSet)
      (xhtml : Element → Bool),
      (∀ (pass : Pass) (element : Element), pass.state.options = options →
        (pass.visit hook.rule element).1 = repaired element ∧
          (pass.visit hook.rule element).2.diagnostics.toList =
            pass.diagnostics.toList ++ raised element ∧
          (pass.visit hook.rule element).2.state =
            { options := pass.state.options
              versions := pass.state.versions ∩ allowed element
              defects := pass.state.defects ∪ defects element
              isXhtml := pass.state.isXhtml || xhtml element }) ∧
      ∀ (pass : Pass) (elements reordered : List Element), pass.state.options = options →
        elements.Perm reordered →
        (pass.visitAll hook.rule elements).1 =
            elements.map (fun element => (repaired element, raised element)) ∧
          (pass.visitAll hook.rule reordered).1 =
            reordered.map (fun element => (repaired element, raised element)) ∧
          (pass.visitAll hook.rule reordered).2.state =
            (pass.visitAll hook.rule elements).2.state := by
  let found (element : Element) : Findings := element.findings options hook.rule
  refine ⟨fun element => element.repair options hook.rule,
    fun element => (found element).diagnostics, fun element => (found element).allowed,
    fun element => (found element).defects, fun element => (found element).xhtml, ?_, ?_⟩
  · rintro pass element rfl
    rw [Pass.visit_eq]
    exact ⟨rfl, diagnostics_absorb pass _, rfl⟩
  · rintro pass elements reordered rfl perm
    rw [visitAll_eq, visitAll_eq]
    refine ⟨rfl, rfl, ?_⟩
    exact State.absorb_joinAll_perm pass.state (perm.symm.map found)

/-- A cell, a paragraph and a caption narrow the versions alike from either end. -/
theorem visits_independent_reversed :
    let elements : List Element :=
      [⟨"td", [.valued "width" "5"]⟩, ⟨"p", [.valued "lang" "en"]⟩,
        ⟨"caption", [.valued "align" "top"]⟩]
    elements.Perm elements.reverse ∧
      ((start {}).visitAll IdRepair.copyName elements.reverse).2.state =
        ((start {}).visitAll IdRepair.copyName elements).2.state := by
  intro elements
  have perm : elements.Perm elements.reverse := (List.reverse_perm elements).symm
  obtain ⟨_, _, _, _, _, _, ordered⟩ := visits_independent .copyName {}
  exact ⟨perm, (ordered (start {}) elements elements.reverse rfl perm).2.2⟩

end Pass

end HtmlConformance
