import HtmlConformance.Proofs.Check.Subjects
import HtmlConformance.Proofs.Checking.Attribute
import HtmlConformance.Proofs.View

namespace HtmlConformance

/-! The attributes of a list checked one by one, each for its name's next repetition and then for
itself. A repaired value is never looked at again, so this comes to the same as a scan of the
whole list for repeated names and then a check of all attributes. -/

/-- Check each attribute of a list at its index, one after the other, and gather the answers. -/
def Checking.checkOneByOne (owner : Owner) :
    Checking (List Attribute) (List (Option (Option AttributeRule))) :=
  throughIndices (fun answers index => do
    let answer ← checkAttributeAt owner index
    return answers ++ [answer]) []

namespace OneByOne

/-- What is found on one attribute after the other. -/
def findings (options : Options) (owner : Owner) : List Attribute → Findings :=
  .gathered fun attr later =>
    Checking.repeatFindings owner attr later ++ attr.findings options owner

theorem findings_cons (options : Options) (owner : Owner) (attr : Attribute)
    (later : List Attribute) :
    findings options owner (attr :: later) =
      (if attr.isTemplated then ∅ else Repeats.headFindings owner (attr :: later)) ++
        attr.findings options owner ++ findings options owner later := rfl

/-! ## The run -/

open Checking in
theorem stepsThrough_checkAttributeAt (options : Options) (owner : Owner) :
    StepsThrough (fun (answers : List (Option (Option AttributeRule))) index => do
        let answer ← checkAttributeAt owner index
        return answers ++ [answer]) options
      (fun answers attr => answers ++ [some attr.rule?])
      (fun attr => attr.repair options)
      (fun attr later => repeatFindings owner attr later ++ attr.findings options owner) := by
  intro answers done attr later pass same
  rw [run_bind, run_checkAttributeAt, run_pure, same]

theorem run_eq (owner : Owner) (pass : Pass) (attributes : List Attribute) :
    (Checking.checkOneByOne owner).run attributes pass =
      (attributes.map fun attr => some attr.rule?,
        ⟨attributes.map fun attr => attr.repair pass.state.options,
          pass.absorb (findings pass.state.options owner attributes)⟩) := by
  have steps := stepsThrough_checkAttributeAt pass.state.options owner
  have answers : attributes.foldl (fun answers attr => answers ++ [some attr.rule?]) [] =
      attributes.map fun attr => some attr.rule? := by
    rw [List.foldl_append_eq_append, List.nil_append, ← List.flatMap_def, ← List.map_eq_flatMap]
  rw [Checking.checkOneByOne, steps.run_throughIndices [] attributes pass rfl, answers]
  rfl

/-! ## Findings -/

section

variable (options : Options) (owner : Owner) (attributes : List Attribute)

theorem within_findings :
    (findings options owner attributes).Within (Repeats.reach ++ Attribute.reach) := by
  induction attributes with
  | nil => exact .empty
  | cons attr later induction =>
      refine .append (.join ?_ (attr.within_findings options owner)) induction
      exact .ite .empty (Repeats.within_headFindings owner _)

/-- Reports on repeated names come as the scan of the whole list makes them. -/
theorem reportsOf_repeated :
    (findings options owner attributes).reportsOf .repeatedAttribute =
      (Repeats.findings owner attributes).diagnostics := by
  induction attributes with
  | nil => rfl
  | cons attr later induction =>
      have own : (attr.findings options owner).reportsOf .repeatedAttribute = [] :=
        (attr.within_findings options owner).reportsOf_eq_nil (by decide)
      have first : (Repeats.headFindings owner (attr :: later)).reportsOf .repeatedAttribute =
          (Repeats.headFindings owner (attr :: later)).diagnostics := by
        rw [Repeats.headFindings]
        split <;> rfl
      rw [findings_cons, Findings.reportsOf_append, Findings.reportsOf_append, own, List.append_nil,
        induction, Repeats.findings, Findings.diagnostics_append]
      split
      · rfl
      · rw [first]

/-- All else is found as in a check of all attributes. -/
theorem through_findings :
    (findings options owner attributes).through (.except [.repeatedAttribute]) =
      (Sweep.run options owner none attributes).findings.through .whole := by
  induction attributes with
  | nil => rfl
  | cons attr later induction =>
      have first : (Repeats.headFindings owner (attr :: later)).through
          (.except [.repeatedAttribute]) = ∅ := by
        rw [Repeats.headFindings]
        split
        · rfl
        · exact Findings.through_raise_of_none (View.hides_except List.mem_cons_self _ rfl)
      have own : (attr.findings options owner).through (.except [.repeatedAttribute]) =
          (attr.findings options owner).through .whole :=
        (attr.within_findings options owner).through_except (by decide)
      rw [findings_cons, Findings.through_append, Findings.through_append, Findings.through_ite,
        first, own, induction]
      simp [Sweep.run]

/-- Apart from the order of the reports, the findings leave what those of both scans leave. -/
theorem absorb_findings (pass : Pass) :
    let both := Repeats.findings owner attributes ++
      (Sweep.run options owner none attributes).findings
    (pass.absorb (findings options owner attributes)).state = (pass.absorb both).state ∧
      (pass.absorb (findings options owner attributes)).log = (pass.absorb both).log := by
  intro both
  have repeats := Repeats.within_findings owner attributes
  have swept := Sweep.within_findings options owner none attributes
  have rest := through_findings options owner attributes
  have allowed : (findings options owner attributes).allowed = both.allowed := by
    rw [Findings.allowed_append, repeats.allowed_eq_everything rfl, VersionSet.everything_inter]
    simpa only [Findings.allowed_through] using congrArg Findings.allowed rest
  have defects : (findings options owner attributes).defects = both.defects := by
    rw [Findings.defects_append, repeats.defects_eq_empty rfl, FlagSet.empty_union]
    simpa only [Findings.defects_through] using congrArg Findings.defects rest
  have xhtml : (findings options owner attributes).xhtml = both.xhtml := by
    rw [Findings.xhtml_append, repeats.xhtml_eq_false rfl, Bool.false_or]
    simpa only [Findings.xhtml_through] using congrArg Findings.xhtml rest
  have warnings : (findings options owner attributes).warnings = both.warnings := by
    rw [Findings.warnings_append, repeats.warnings_eq_nil rfl, swept.warnings_eq_nil rfl]
    exact (within_findings options owner attributes).warnings_eq_nil rfl
  simp only [Pass.absorb, State.absorb, allowed, defects, xhtml, warnings, and_self]

end

/-- To check the attributes of a list one by one is to look the whole list through for repeated
names first and to check all attributes then: the same repairs are made, and the state and the log
are the same. The reports on repeated names, taken alone, and all others, taken alone, are the same
in the same order. Every index is answered with the rule for the attribute there, and the rules that
are answers are those of the attributes that the check of all has seen. -/
theorem oneByOne_eq_bulk (owner : Owner) (pass : Pass) (attributes : List Attribute) :
    let single := (Checking.checkOneByOne owner).run attributes pass
    let scan := (Checking.checkAllUnique owner).run attributes pass
    let bulk := (Checking.checkAttributes owner none).run scan.2.subject scan.2.pass
    single.2.subject = bulk.2.subject ∧
      single.2.pass.state = bulk.2.pass.state ∧
      single.2.pass.log = bulk.2.pass.log ∧
      (∃ raised repeats others,
        single.2.pass.diagnostics.toList = pass.diagnostics.toList ++ raised ∧
        scan.2.pass.diagnostics.toList = pass.diagnostics.toList ++ repeats ∧
        bulk.2.pass.diagnostics.toList = scan.2.pass.diagnostics.toList ++ others ∧
        (raised.filter fun diagnostic => diagnostic.kind == .repeatedAttribute) = repeats ∧
        (raised.filter fun diagnostic => diagnostic.kind != .repeatedAttribute) = others) ∧
      single.1 = attributes.map (fun attr => some attr.rule?) ∧
      ∀ rule, some (some rule) ∈ single.1 ↔
        ∃ identity, bulk.1.contains identity = true ∧ AttributeRule.get identity = rule := by
  intro single scan bulk
  let options := pass.state.options
  have course : single = _ := run_eq owner pass attributes
  have scanned : scan = _ := Checking.run_checkAllUnique owner pass attributes
  have swept : bulk = (.metIn attributes, ⟨(Sweep.run options owner none attributes).attributes,
      (pass.absorb (Repeats.findings owner attributes)).absorb
        (Sweep.run options owner none attributes).findings⟩) := by
    rw [show bulk = _ from Checking.run_checkAttributes owner scan.2.pass none scan.2.subject,
      scanned]
    rfl
  have left := absorb_findings options owner attributes pass
  have others := congrArg Findings.diagnostics (through_findings options owner attributes)
  simp only [Findings.diagnostics_through, View.filterMap_except, View.filterMap_whole] at others
  simp only [Pass.absorb_append] at left
  rw [swept, course, scanned]
  refine ⟨?_, left.1, left.2, ⟨_, _, _, pass.diagnostics_absorb _, pass.diagnostics_absorb _,
    Pass.diagnostics_absorb _ _, ?_, ?_⟩, rfl, ?_⟩
  · simp [Sweep.run, options]
  · exact reportsOf_repeated options owner attributes
  · rw [← others]
    apply List.filter_congr
    intro diagnostic _
    cases diagnostic.kind <;> rfl
  · intro rule
    simp only [SeenAttributes.contains_metIn_iff, List.mem_map, Option.some.injEq]
    constructor
    · intro answered
      rcases answered with ⟨attr, member, found⟩
      have row := AttributeRule.get_identity (AttributeRule.mem_of_find? found)
      refine ⟨rule.identity, ⟨attr, member, ?_⟩, row⟩
      rw [row, found]
    · intro seen
      rcases seen with ⟨identity, ⟨attr, member, found⟩, rfl⟩
      exact ⟨attr, member, found⟩

end OneByOne

end HtmlConformance
