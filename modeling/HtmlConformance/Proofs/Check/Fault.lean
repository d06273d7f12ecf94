import HtmlConformance.Proofs.Check.Value
import HtmlConformance.Proofs.Rule.Attribute

namespace HtmlConformance

/-! What is wrong with a single attribute. Of all faults that an attribute can have it has one at
most, and the check of the attribute reports this one. -/

theorem AttributeRule.diagnostics_versionFindings {rule : AttributeRule} (listed : rule ∈ table)
    (options : Options) (owner : Owner) (attr : Attribute) :
    (rule.versionFindings options owner attr).diagnostics =
      if rule.versions.contains .xml && !options.xmlMode then
        [.onAttribute .xmlAttributeMisuse owner.tag attr]
      else [] := by
  rw [versionFindings, FlagSet.intersects_only]
  split
  next titled =>
    rw [contains_xml_of_title listed (Bool.and_eq_true_iff.mp titled).1]
    rfl
  next =>
    cases rule.versions.contains .xml with
    | false => rfl
    | true => cases options.xmlMode <;> rfl

/-! ## Faults -/

namespace Attribute

/-- A fault of an attribute on an element, given by the kind of report that it deserves: the
attribute is unknown, it belongs to XML, it lacks a value, its value is bad, or only vendors
know the value. -/
inductive Faulty (options : Options) (owner : Owner) (attr : Attribute) : DiagnosticKind → Prop
  | unknown {element : ElementRule}
      (unlisted : ∀ rule ∈ AttributeRule.table, attr.isNamed rule.name = false)
      (strict : options.xmlTags = false) (known : owner.rule = some element)
      (standard : element.model.has (.only .proprietary) = false) (plain : attr.fragment = none) :
      Faulty options owner attr .unknownAttribute
  | foreign {rule : AttributeRule} (listed : rule ∈ AttributeRule.table)
      (named : attr.isNamed rule.name = true) (xml : rule.versions.contains .xml = true)
      (input : options.xmlTags = false) (output : options.xmlOutput = false) :
      Faulty options owner attr .xmlAttributeMisuse
  | valueless {rule : AttributeRule} {valueRule : ValueRule} (listed : rule ∈ AttributeRule.table)
      (named : attr.isNamed rule.name = true) (checked : rule.value = some valueRule)
      (needed : valueRule ∉ [.script, .bool, .id, .name]) (bare : attr.value = none) :
      Faulty options owner attr .missingAttributeValue
  | bad {rule : AttributeRule} {valueRule : ValueRule} {value : String}
      (listed : rule ∈ AttributeRule.table) (named : attr.isNamed rule.name = true)
      (checked : rule.value = some valueRule) (valued : attr.value = some value)
      (refused : ¬valueRule.Admits owner.isImageLike value)
      (uncommon : ¬((valueRule = .valign ∨ valueRule = .align ∧ owner.isImageLike = true) ∧
        ValueGrammar.IsWord vendorPlaces value)) :
      Faulty options owner attr .badAttributeValue
  | proprietary {rule : AttributeRule} {valueRule : ValueRule} {value : String}
      (listed : rule ∈ AttributeRule.table) (named : attr.isNamed rule.name = true)
      (checked : rule.value = some valueRule) (valued : attr.value = some value)
      (placed : valueRule = .valign ∨ valueRule = .align ∧ owner.isImageLike = true)
      (vendor : ValueGrammar.IsWord vendorPlaces value) :
      Faulty options owner attr .proprietaryAttributeValue

/-- The fault that the check of an attribute reports. -/
def fault? (options : Options) (owner : Owner) (attr : Attribute) : Option DiagnosticKind :=
  match attr.rule? with
  | none => if attr.isExcused options owner then none else some .unknownAttribute
  | some rule =>
      if rule.versions.contains .xml then
        if options.xmlMode then none else some .xmlAttributeMisuse
      else
        rule.value.bind fun valueRule => (valueRule.judge owner.isImageLike attr.value).kind?

variable {options : Options} {owner : Owner} {attr : Attribute}

theorem diagnostics_findings (options : Options) (owner : Owner) (attr : Attribute) :
    (attr.findings options owner).diagnostics =
      (attr.fault? options owner).toList.map fun kind => .onAttribute kind owner.tag attr := by
  unfold findings fault?
  cases found : attr.rule? with
  | none => cases attr.isExcused options owner <;> rfl
  | some rule =>
      have listed := AttributeRule.mem_of_find? found
      simp only [AttributeRule.findings, Findings.diagnostics_append,
        AttributeRule.diagnostics_versionFindings listed]
      cases foreign : rule.versions.contains .xml with
      | true =>
          rw [AttributeRule.value_of_xml listed foreign]
          cases options.xmlMode <;> rfl
      | false =>
          cases rule.value with
          | none => rfl
          | some valueRule => exact valueRule.diagnostics_findings owner attr

theorem isExcused_eq_false_iff :
    attr.isExcused options owner = false ↔
      options.xmlTags = false ∧ (∃ element, owner.rule = some element ∧
        element.model.has (.only .proprietary) = false) ∧ attr.fragment = none := by
  rw [isExcused, Owner.hasModel, isTemplated]
  cases owner.rule <;> simp [and_comm, and_assoc]

theorem rule?_eq_some_iff {rule : AttributeRule} :
    attr.rule? = some rule ↔ rule ∈ AttributeRule.table ∧ attr.isNamed rule.name = true :=
  AttributeRule.find?_eq_some_iff

theorem faulty_of_judge {rule : AttributeRule} {valueRule : ValueRule} {kind : DiagnosticKind}
    (found : attr.rule? = some rule) (checked : rule.value = some valueRule)
    (reported : (valueRule.judge owner.isImageLike attr.value).kind? = some kind) :
    attr.Faulty options owner kind := by
  obtain ⟨listed, named⟩ := rule?_eq_some_iff.mp found
  cases verdict : valueRule.judge owner.isImageLike attr.value with
  | accepted =>
      rw [verdict] at reported
      cases reported
  | missing =>
      obtain ⟨needed, bare⟩ := (valueRule.judge_eq_missing _ _).mp verdict
      rw [verdict] at reported
      cases reported
      exact .valueless listed named checked needed bare
  | bad =>
      obtain ⟨value, valued, refused, uncommon⟩ := (ValueRule.judge_eq_bad _).mp verdict
      rw [verdict] at reported
      cases reported
      exact .bad listed named checked valued refused uncommon
  | proprietary =>
      obtain ⟨placed, vendor⟩ := (valueRule.judge_eq_proprietary _ _).mp verdict
      obtain ⟨value, valued, word⟩ := (Option.any_eq_true _ _).mp vendor
      rw [verdict] at reported
      cases reported
      exact .proprietary listed named checked valued placed (ValueGrammar.isOneOf_iff.mp word)

theorem faulty_of_fault? {kind : DiagnosticKind} (fault : attr.fault? options owner = some kind) :
    attr.Faulty options owner kind := by
  unfold fault? at fault
  cases found : attr.rule? with
  | none =>
      rw [found] at fault
      simp only at fault
      split at fault
      next => cases fault
      next strange =>
        obtain ⟨strict, ⟨element, known, standard⟩, plain⟩ :=
          isExcused_eq_false_iff.mp (eq_false_of_ne_true strange)
        cases fault
        exact .unknown (AttributeRule.find?_eq_none_iff.mp found) strict known standard plain
  | some rule =>
      rw [found] at fault
      simp only at fault
      split at fault
      next xml =>
        split at fault
        next => cases fault
        next plain =>
          obtain ⟨listed, named⟩ := rule?_eq_some_iff.mp found
          rw [Options.xmlMode, Bool.not_eq_true, Bool.or_eq_false_iff] at plain
          cases fault
          exact .foreign listed named xml plain.1 plain.2
      next =>
        obtain ⟨valueRule, checked, reported⟩ := Option.bind_eq_some_iff.mp fault
        exact faulty_of_judge found checked reported

theorem fault?_of_valueRule {rule : AttributeRule} {valueRule : ValueRule}
    (listed : rule ∈ AttributeRule.table) (named : attr.isNamed rule.name = true)
    (checked : rule.value = some valueRule) :
    attr.fault? options owner = (valueRule.judge owner.isImageLike attr.value).kind? := by
  have found := rule?_eq_some_iff.mpr ⟨listed, named⟩
  have domestic : rule.versions.contains .xml = false := by
    by_contra foreign
    rw [AttributeRule.value_of_xml listed (eq_true_of_ne_false foreign)] at checked
    cases checked
  simp [fault?, found, domestic, checked]

theorem fault?_of_faulty {kind : DiagnosticKind} (faulty : attr.Faulty options owner kind) :
    attr.fault? options owner = some kind := by
  cases faulty with
  | unknown unlisted strict known standard plain =>
      have missing : attr.rule? = none := AttributeRule.find?_eq_none_iff.mpr unlisted
      have strange := isExcused_eq_false_iff.mpr ⟨strict, ⟨_, known, standard⟩, plain⟩
      simp [fault?, missing, strange]
  | foreign listed named xml input output =>
      have found := rule?_eq_some_iff.mpr ⟨listed, named⟩
      simp [fault?, found, xml, Options.xmlMode, input, output]
  | valueless listed named checked needed bare =>
      rw [fault?_of_valueRule listed named checked,
        (ValueRule.judge_eq_missing _ _ _).mpr ⟨needed, bare⟩]
      rfl
  | bad listed named checked valued refused uncommon =>
      rw [fault?_of_valueRule listed named checked,
        (ValueRule.judge_eq_bad _).mpr ⟨_, valued, refused, uncommon⟩]
      rfl
  | proprietary listed named checked valued placed vendor =>
      have word : attr.value.any (Text.isOneOf · vendorPlaces) = true := by
        rw [valued, Option.any_some, ValueGrammar.isOneOf_iff]
        exact vendor
      rw [fault?_of_valueRule listed named checked,
        (ValueRule.judge_eq_proprietary _ _ _).mpr ⟨placed, word⟩]
      rfl

/-- The check of an attribute adds one report at most to those of the pass, and it is of a kind if
and only if the attribute has the fault of this kind. -/
theorem reported_for_its_fault (pass : Pass) (owner : Owner) (attr : Attribute) :
    ∃ fault : Option DiagnosticKind,
      (pass.absorb (attr.findings pass.state.options owner)).diagnostics.toList =
          pass.diagnostics.toList ++
            fault.toList.map (fun kind => .onAttribute kind owner.tag attr) ∧
        ∀ kind, fault = some kind ↔ attr.Faulty pass.state.options owner kind := by
  refine ⟨attr.fault? pass.state.options owner, ?_, fun kind => ?_⟩
  · rw [Pass.diagnostics_absorb, diagnostics_findings]
  · exact ⟨faulty_of_fault?, fault?_of_faulty⟩

end Attribute

end HtmlConformance
