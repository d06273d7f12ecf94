import HtmlConformance.Checking.Attribute
import HtmlConformance.Proofs.Checking.Value
import HtmlConformance.Proofs.Rule.Attribute

namespace HtmlConformance

/-! The checks of an attribute list at work. Attributes are repaired in place while the list is
looked through, but neither names nor template code ever change, and no repaired value is looked
at again. -/

/-! ## Attributes that are met -/

theorem Attribute.resolvesTo_eq (attr : Attribute) (identity : AttributeId) :
    attr.resolvesTo identity = Sweep.resolvesTo attr (AttributeRule.nameOf identity) := by
  rw [resolvesTo, Sweep.resolvesTo, rule?]
  cases found : AttributeRule.find? attr.name with
  | none => rfl
  | some rule =>
      rw [Option.any_some, Option.any_some, Bool.eq_iff_iff, beq_iff_eq, beq_iff_eq]
      exact AttributeRule.identity_eq_iff (AttributeRule.mem_of_find? found)

theorem Attribute.any_resolvesTo (attr : Attribute) (skip : Option AttributeId) :
    (skip.map AttributeRule.nameOf).any (Sweep.resolvesTo attr) = skip.any attr.resolvesTo := by
  cases skip with
  | none => rfl
  | some identity => exact (attr.resolvesTo_eq identity).symm

theorem Attribute.resolvesTo_iff {attr : Attribute} {identity : AttributeId} :
    attr.resolvesTo identity = true ↔ attr.rule? = some (AttributeRule.get identity) := by
  rw [resolvesTo, Option.any_eq_true, rule?]
  constructor
  · intro resolves
    rcases resolves with ⟨rule, found, same⟩
    rw [found, ← eq_of_beq same, AttributeRule.get_identity (AttributeRule.mem_of_find? found)]
  · intro found
    exact ⟨_, found, beq_iff_eq.mpr (AttributeRule.exact_find?.identity_get identity)⟩

namespace SeenAttributes

/-- The attributes of the table that a list has. -/
def metIn (attributes : List Attribute) : SeenAttributes :=
  attributes.foldl (fun seen attr => seen.record (attr.rule?.map AttributeRule.identity)) ∅

theorem contains_record (seen : SeenAttributes) (attr : Attribute) (identity : AttributeId) :
    (seen.record (attr.rule?.map AttributeRule.identity)).contains identity =
      (seen.contains identity || attr.resolvesTo identity) := by
  rw [Attribute.resolvesTo, Attribute.rule?]
  cases AttributeRule.find? attr.name with
  | none => simp [record]
  | some rule => simp [record, Bool.beq_comm]

theorem contains_foldl_record (attributes : List Attribute) (seen : SeenAttributes)
    (identity : AttributeId) :
    (attributes.foldl (fun seen attr =>
        seen.record (attr.rule?.map AttributeRule.identity)) seen).contains identity =
      (seen.contains identity || attributes.any fun attr => attr.resolvesTo identity) := by
  induction attributes generalizing seen with
  | nil => simp
  | cons attr later induction =>
      rw [List.foldl_cons, induction, contains_record, List.any_cons, Bool.or_assoc]

theorem contains_metIn (attributes : List Attribute) (identity : AttributeId) :
    (metIn attributes).contains identity =
      attributes.any fun attr => attr.resolvesTo identity := by
  rw [metIn, contains_foldl_record, FlagSet.contains_empty, Bool.false_or]

theorem contains_metIn_iff (attributes : List Attribute) (identity : AttributeId) :
    (metIn attributes).contains identity = true ↔
      ∃ attr ∈ attributes, attr.rule? = some (AttributeRule.get identity) := by
  simp only [contains_metIn, List.any_eq_true, Attribute.resolvesTo_iff]

/-- What a list has is what a sweep of it has seen, with or without a name to skip. -/
theorem contains_metIn_eq_has (options : Options) (owner : Owner) (skip : Option String)
    (attributes : List Attribute) (identity : AttributeId) :
    (metIn attributes).contains identity =
      (Sweep.run options owner skip attributes).has (AttributeRule.nameOf identity) := by
  rw [contains_metIn, Sweep.has_run_eq_any_resolvesTo]
  simp only [Attribute.resolvesTo_eq]

end SeenAttributes

namespace Checking

variable (owner : Owner) (pass : Pass)

/-! ## One attribute -/

@[simp] theorem run_checkVersions {rule : AttributeRule} (attr : Attribute) :
    (checkVersions rule owner).run attr pass =
      ((), ⟨attr, pass.absorb (rule.versionFindings pass.state.options owner attr)⟩) := by
  simp only [checkVersions, AttributeRule.versionFindings, run_ite]
  split
  · exact run_narrow attr pass _
  · split
    · cases xml : pass.state.options.xmlMode <;> simp [xml]
    · exact run_narrow attr pass _

theorem run_checkAttribute (attr : Attribute) :
    (checkAttribute owner).run attr pass =
      (attr.rule?, ⟨attr.repair pass.state.options,
        pass.absorb (attr.findings pass.state.options owner)⟩) := by
  cases found : attr.rule? with
  | none =>
      have kept := attr.repair_of_no_valueRule? pass.state.options
        (by rw [Attribute.valueRule?, found, Option.bind_none])
      have missing : AttributeRule.find? attr.name = none := found
      rw [kept, Attribute.findings, found]
      cases excused : attr.isExcused pass.state.options owner with
      | false =>
          rw [Attribute.isExcused] at excused
          simp only [checkAttribute, run_bind, run_subject, run_options, missing, excused]
          simp
      | true =>
          rw [Attribute.isExcused] at excused
          simp only [checkAttribute, run_bind, run_subject, run_options, missing, excused]
          simp
  | some rule =>
      have looked : AttributeRule.find? attr.name = some rule := found
      cases valued : rule.value with
      | none =>
          have kept := attr.repair_of_no_valueRule? pass.state.options
            (by rw [Attribute.valueRule?, found, Option.bind_some, valued])
          simp [checkAttribute, looked, valued, kept, Attribute.findings, found,
            AttributeRule.findings]
      | some valueRule =>
          have rewritten := attr.repair_of_valueRule? pass.state.options
            (by rw [Attribute.valueRule?, found, Option.bind_some, valued])
          simp [checkAttribute, looked, valued, rewritten, Attribute.findings, found,
            AttributeRule.findings, valueRule.isDoneBy_apply owner attr, Pass.absorb_append]

/-! ## Repeated names -/

theorem run_checkUniqueness (index : Nat) (attributes : List Attribute) :
    (checkUniqueness owner index).run attributes pass =
      ((), ⟨attributes,
        pass.absorb (Repeats.headFindings owner (attributes.drop index))⟩) := by
  simp only [checkUniqueness, run_bind, run_subject]
  cases rest : attributes.drop index with
  | nil => simp [Repeats.headFindings]
  | cons attr later =>
      rw [Repeats.headFindings]
      cases found : Repeats.first? attr.name later <;>
        rw [Repeats.first?] at found <;> simp [found]

/-- What is found on one attribute where the attributes that come later repeat its name. -/
def repeatFindings (attr : Attribute) (later : List Attribute) : Findings :=
  if attr.isTemplated then ∅ else Repeats.headFindings owner (attr :: later)

theorem run_checkRepeats (done : List Attribute) (attr : Attribute) (later : List Attribute) :
    (checkRepeats owner done.length).run (done ++ attr :: later) pass =
      ((), ⟨done ++ attr :: later, pass.absorb (repeatFindings owner attr later)⟩) := by
  have here : (done ++ attr :: later)[done.length]? = some attr := by simp
  simp only [checkRepeats, run_bind, run_subject, here, repeatFindings]
  cases templated : attr.isTemplated <;> simp [run_checkUniqueness]

theorem repeats_eq_gathered (attributes : List Attribute) :
    Repeats.findings owner attributes = .gathered (repeatFindings owner) attributes := by
  induction attributes with
  | nil => rfl
  | cons attr later induction => rw [Repeats.findings, induction, Findings.gathered, repeatFindings]

/-- The whole list is looked through for repeated names, and none is changed. -/
theorem run_checkAllUnique (attributes : List Attribute) :
    (checkAllUnique owner).run attributes pass =
      ((), ⟨attributes, pass.absorb (Repeats.findings owner attributes)⟩) := by
  have steps : StepsThrough (fun (_ : Unit) index => checkRepeats owner index)
      pass.state.options (fun _ _ => ()) (fun attr => attr) (repeatFindings owner) :=
    fun _ done attr later pass _ => run_checkRepeats owner pass done attr later
  rw [checkAllUnique, steps.run_throughIndices () attributes pass rfl, repeats_eq_gathered,
    List.map_id']

/-! ## Attributes in a list -/

/-- To check the attribute at an index is to look at the attributes after it, and then to check
it by itself. -/
theorem run_checkAttributeAt (done : List Attribute) (attr : Attribute)
    (later : List Attribute) :
    (checkAttributeAt owner done.length).run (done ++ attr :: later) pass =
      (some attr.rule?, ⟨done ++ attr.repair pass.state.options :: later,
        pass.absorb (repeatFindings owner attr later ++
          attr.findings pass.state.options owner)⟩) := by
  simp [checkAttributeAt, run_checkRepeats, run_atIndex, run_checkAttribute, Pass.absorb_append]

theorem run_checkUnlessSkipped (skip : Option AttributeId) (attr : Attribute) :
    (checkUnlessSkipped owner skip).run attr pass =
      (attr.rule?.map AttributeRule.identity,
        if skip.any attr.resolvesTo then ⟨attr, pass⟩
        else ⟨attr.repair pass.state.options,
          pass.absorb (attr.findings pass.state.options owner)⟩) := by
  cases skipped : skip.any attr.resolvesTo with
  | false =>
      simp only [checkUnlessSkipped, run_bind, run_subject, run_ite, skipped]
      simp [run_checkAttribute]
  | true =>
      -- What is skipped is the identity of the rule for the attribute.
      have met : attr.rule?.map AttributeRule.identity = skip := by
        rcases (Option.any_eq_true _ _).mp skipped with ⟨identity, rfl, resolved⟩
        rcases (Option.any_eq_true _ _).mp resolved with ⟨rule, found, same⟩
        rw [Attribute.rule?, found, Option.map_some, eq_of_beq same]
      simp only [checkUnlessSkipped, run_bind, run_subject, run_ite, skipped]
      simp [met]

/-- The step that the loop over all attributes takes. -/
theorem stepsThrough_checkUnlessSkipped (options : Options) (skip : Option AttributeId) :
    StepsThrough (fun (seen : SeenAttributes) index => do
        let met ← atIndex index (checkUnlessSkipped owner skip)
        return seen.record met.join) options
      (fun seen attr => seen.record (attr.rule?.map AttributeRule.identity))
      (fun attr => if skip.any attr.resolvesTo then attr else attr.repair options)
      (fun attr _ => if skip.any attr.resolvesTo then ∅ else attr.findings options owner) := by
  intro seen done attr later pass same
  simp only [run_bind, run_atIndex, run_checkUnlessSkipped, run_pure, same]
  split
  · rw [Pass.absorb_empty]
    rfl
  · rfl

/-- All attributes are checked in turn as in a sweep, and what the list has is seen. -/
theorem run_checkAttributes (skip : Option AttributeId) (attributes : List Attribute) :
    let sweep := Sweep.run pass.state.options owner (skip.map AttributeRule.nameOf) attributes
    (checkAttributes owner skip).run attributes pass =
      (.metIn attributes, ⟨sweep.attributes, pass.absorb sweep.findings⟩) := by
  have steps := stepsThrough_checkUnlessSkipped owner pass.state.options skip
  simp only [checkAttributes, steps.run_throughIndices ∅ attributes pass rfl, Sweep.run,
    Attribute.any_resolvesTo, Findings.joinAll_map_eq_gathered]
  rfl

end Checking

end HtmlConformance
