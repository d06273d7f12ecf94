import HtmlConformance.Proofs.Checking.Attribute

namespace HtmlConformance

/-! The attributes of a list checked in turn, with an identity that may be skipped. The attributes
of the table that stand in the list are seen, the skipped one among them. Apart from that a skipped
attribute might as well not be there: it stays as it is, and the others are checked as in a list
without it. -/

/-! ## What is skipped -/

namespace Attribute

/-- Whether the attribute is passed over where an identity is skipped. -/
def isSkipped (attr : Attribute) (skip : Option AttributeId) : Bool := skip.any attr.resolvesTo

variable {attr : Attribute} {skip : Option AttributeId}

theorem resolvesTo_iff_isNamed {identity : AttributeId} :
    attr.resolvesTo identity = true ↔ attr.isNamed (AttributeRule.nameOf identity) = true := by
  rw [resolvesTo_iff, rule?, AttributeRule.find?_eq_some_iff]
  exact and_iff_right (AttributeRule.indexed.get_mem identity)

/-- What resolves to one identity resolves to no other. -/
theorem isSkipped_of_resolvesTo {identity : AttributeId}
    (resolves : attr.resolvesTo identity = true) :
    attr.isSkipped skip = (skip == some identity) := by
  cases skip with
  | none => rfl
  | some other =>
      have found := resolvesTo_iff.mp resolves
      have own : (AttributeRule.get identity).identity = identity :=
        AttributeRule.exact_find?.identity_get identity
      rw [isSkipped, Option.any_some, resolvesTo, ← rule?, found, Option.any_some, own,
        Bool.beq_comm, Option.some_beq_some]

@[simp] theorem isSkipped_repair (options : Options) :
    (attr.repair options).isSkipped skip = attr.isSkipped skip := by
  have resolves : (attr.repair options).resolvesTo = attr.resolvesTo := by
    funext identity
    rw [resolvesTo, resolvesTo, attr.name_repair]
  rw [isSkipped, isSkipped, resolves]

end Attribute

/-- The attributes of a list that are not skipped. -/
def Attribute.kept (skip : Option AttributeId) (attributes : List Attribute) : List Attribute :=
  attributes.filter fun attr => !attr.isSkipped skip

/-! ## Sweeps of what is kept -/

section

variable (options : Options) (owner : Owner) (skip : Option AttributeId)
  (attributes : List Attribute)

theorem Sweep.attributes_run_skip :
    (run options owner (skip.map AttributeRule.nameOf) attributes).attributes =
      attributes.map fun attr => if attr.isSkipped skip then attr else attr.repair options := by
  simp only [run, Attribute.any_resolvesTo]
  rfl

theorem Sweep.findings_run_skip :
    (run options owner (skip.map AttributeRule.nameOf) attributes).findings =
      .joinAll (attributes.map fun attr =>
        if attr.isSkipped skip then ∅ else attr.findings options owner) := by
  simp only [run, Attribute.any_resolvesTo]
  rfl

/-- The repairs of what is kept are those of a list that has nothing else. -/
theorem Sweep.kept_attributes_run :
    Attribute.kept skip (run options owner (skip.map AttributeRule.nameOf) attributes).attributes =
      (run options owner none (Attribute.kept skip attributes)).attributes := by
  rw [attributes_run_skip]
  induction attributes with
  | nil => rfl
  | cons attr later induction =>
      rw [Attribute.kept] at induction
      cases skipped : attr.isSkipped skip with
      | true => simp [Attribute.kept, skipped, induction]
      | false => simp [Attribute.kept, skipped, induction, run]

/-- Nothing is found on what is skipped. -/
theorem Sweep.findings_run_kept :
    (run options owner (skip.map AttributeRule.nameOf) attributes).findings =
      (run options owner none (Attribute.kept skip attributes)).findings := by
  rw [findings_run_skip]
  induction attributes with
  | nil => rfl
  | cons attr later induction =>
      rw [List.map_cons, Findings.joinAll_cons, induction]
      cases skipped : attr.isSkipped skip with
      | true => simp [Attribute.kept, skipped]
      | false => simp [Attribute.kept, skipped, run]

/-- Of what is skipped only its identity is seen. -/
theorem SeenAttributes.metIn_kept :
    metIn attributes \ (∅ : SeenAttributes).record skip =
      metIn (Attribute.kept skip attributes) := by
  apply FlagSet.ext
  intro identity
  have skipped : FlagSet.contains ((∅ : SeenAttributes).record skip) identity =
      (skip == some identity) := by
    cases skip <;> simp [record, Bool.beq_comm]
  have each (attr : Attribute) : (attr.resolvesTo identity && !(skip == some identity)) =
      (!attr.isSkipped skip && attr.resolvesTo identity) := by
    cases resolves : attr.resolvesTo identity with
    | false => rw [Bool.false_and, Bool.and_false]
    | true => rw [Attribute.isSkipped_of_resolvesTo resolves, Bool.true_and, Bool.and_true]
  rw [FlagSet.contains_diff, skipped, contains_metIn, contains_metIn, Attribute.kept,
    List.any_filter, List.and_any_distrib_right]
  simp only [each]

end

/-- Attributes checked in turn, with an identity to skip or without one. The run is a sweep. It
has seen exactly the attributes of the table that stand in the list, in any letter case, skipped
or not. Every attribute is still in its place under its name, and a skipped one has not changed at
all. For the rest, all is as if the skipped attributes had been taken out of the list and nothing
were to be skipped: the repairs of the others in their order, the pass, and the other attributes
that are seen. -/
theorem Checking.skipped_as_if_absent (owner : Owner) (skip : Option AttributeId) (pass : Pass)
    (attributes : List Attribute) :
    let swept := (checkAttributes owner skip).run attributes pass
    let rest := (checkAttributes owner none).run (Attribute.kept skip attributes) pass
    let sweep := Sweep.run pass.state.options owner (skip.map AttributeRule.nameOf) attributes
    (swept.2.subject = sweep.attributes ∧ swept.2.pass = pass.absorb sweep.findings ∧
        ∀ identity, swept.1.contains identity = sweep.has (AttributeRule.nameOf identity)) ∧
      (∀ identity, swept.1.contains identity = true ↔
        ∃ attr ∈ attributes, attr.isNamed (AttributeRule.nameOf identity) = true) ∧
      List.Forall₂ (fun before after => after.name = before.name ∧
        (before.isSkipped skip = true → after = before)) attributes swept.2.subject ∧
      Attribute.kept skip swept.2.subject = rest.2.subject ∧
      swept.2.pass = rest.2.pass ∧
      swept.1 \ (∅ : SeenAttributes).record skip = rest.1 := by
  intro swept rest sweep
  let options := pass.state.options
  have ran : swept = (.metIn attributes, ⟨sweep.attributes, pass.absorb sweep.findings⟩) :=
    run_checkAttributes owner pass skip attributes
  have alone : rest = _ := run_checkAttributes owner pass none (Attribute.kept skip attributes)
  rw [ran, alone]
  refine ⟨⟨rfl, rfl, fun identity => ?_⟩, fun identity => ?_, ?_, ?_, ?_, ?_⟩
  · exact SeenAttributes.contains_metIn_eq_has options owner _ attributes identity
  · simp only [SeenAttributes.contains_metIn, List.any_eq_true, Attribute.resolvesTo_iff_isNamed]
  · rw [Sweep.attributes_run_skip, List.forall₂_map_right_iff, List.forall₂_same]
    intro attr _
    refine ⟨?_, fun skipped => if_pos skipped⟩
    split
    · rfl
    · exact attr.name_repair options
  · exact Sweep.kept_attributes_run options owner skip attributes
  · exact congrArg pass.absorb (Sweep.findings_run_kept options owner skip attributes)
  · exact SeenAttributes.metIn_kept skip attributes

end HtmlConformance
