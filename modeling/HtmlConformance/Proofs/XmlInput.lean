import HtmlConformance.Proofs.Check.Comparison

namespace HtmlConformance

/-! The option for XML input. It silences reports on names that HTML does not know and on
attributes of XML, and bears on nothing else. -/

namespace Options

def forXml (options : Options) : Options := { options with xmlTags := true }

def forHtml (options : Options) : Options := { options with xmlTags := false }

end Options

def DiagnosticKind.silencedForXml : List DiagnosticKind := [.unknownAttribute, .xmlAttributeMisuse]

def View.xml : View := .except DiagnosticKind.silencedForXml

variable (options : Options) (owner : Owner)

/-! ## Single attributes -/

theorem AttributeRule.findings_forXml (rule : AttributeRule) (attr : Attribute) :
    (rule.findings options.forXml owner attr).through .whole =
      (rule.findings options.forHtml owner attr).through .xml := by
  have hides : View.xml.Hides .xmlAttributeMisuse := View.hides_except (by decide)
  have silent : (owner.report .xmlAttributeMisuse attr).through .xml = ∅ :=
    Findings.through_raise_of_none (hides _ rfl)
  have versions : (rule.versionFindings options.forXml owner attr).through .whole =
      (rule.versionFindings options.forHtml owner attr).through .xml := by
    have excused : options.forXml.xmlMode = true := rfl
    simp only [versionFindings, Findings.through_ite, silent, excused, if_true, ite_self,
      Findings.through_empty, Findings.through_narrow]
  rw [findings, findings, Findings.through_append, Findings.through_append, versions]
  cases rule.value with
  | none => rfl
  | some valueRule =>
      exact congrArg _ ((valueRule.within_findings owner attr).through_except (by decide)).symm

theorem Attribute.findings_forXml (attr : Attribute) :
    (attr.findings options.forXml owner).through .whole =
      (attr.findings options.forHtml owner).through .xml := by
  unfold findings
  cases attr.rule? with
  | some rule => exact rule.findings_forXml options owner attr
  | none =>
      have hides : View.xml.Hides .unknownAttribute := View.hides_except (by decide)
      have silent : (owner.report .unknownAttribute attr).through .xml = ∅ :=
        Findings.through_raise_of_none (hides _ rfl)
      have excused : attr.isExcused options.forXml owner = true := rfl
      simp only [Findings.through_ite, silent, excused, if_true, ite_self, Findings.through_empty]

/-! ## Elements -/

section

variable (hook : IdRepair.BuiltIn) (element : Element)

namespace ElementCheck

variable (check : ElementCheck)

theorem sweep_forXml :
    (check.sweep options.forXml owner element).findings.through .whole =
      (check.sweep options.forHtml owner element).findings.through .xml := by
  apply Findings.through_joinAll_map
  apply List.forall₂_same.mpr
  intro attr _
  simp only [Findings.through_ite, attr.findings_forXml, Findings.through_empty]

/-- The own rule of a check asks for no option that XML input sets. -/
theorem ruleFindings_forXml :
    check.ruleFindings options.forXml hook.rule owner (check.sweep options.forXml owner element)
        (check.swept options.forXml owner element) =
      check.ruleFindings options.forHtml hook.rule owner
        (check.sweep options.forHtml owner element)
        (check.swept options.forHtml owner element) := by
  cases hook <;> cases check <;> rfl

theorem findings_forXml :
    (check.findings options.forXml hook.rule owner element).through .whole =
      (check.findings options.forHtml hook.rule owner element).through .xml := by
  have repeats : (Repeats.findings owner element.attributes).through .xml =
      (Repeats.findings owner element.attributes).through .whole :=
    (Repeats.within_findings owner element.attributes).through_except (by decide)
  have rule := check.within_ruleFindings options.forHtml hook owner
    (check.sweep options.forHtml owner element) (check.swept options.forHtml owner element)
  have apart (sized : Bool) : ∀ kind ∈ (check.ruleReach sized).kinds,
      kind ∉ DiagnosticKind.silencedForXml := by
    cases check <;> decide +revert
  simp only [findings, Findings.through_append, repeats, sweep_forXml, ruleFindings_forXml]
  rw [View.xml, rule.through_except (apart _)]

end ElementCheck

namespace Element

theorem findings_forXml :
    (element.findings options.forXml hook.rule).through .whole =
      (element.findings options.forHtml hook.rule).through .xml := by
  rw [findings_through, findings_through, ElementCheck.findings_forXml]

theorem repair_forXml :
    element.repair options.forXml hook.rule = element.repair options.forHtml hook.rule := by
  unfold repair
  cases hook <;> cases element.check <;> rfl

end Element

end

/-! ## Documents -/

namespace Arena

/-- The option for XML input only silences. With it and without it a pass leaves the same
document and comes to the same verdict, and with it the diagnostics are those without it, but for
unknown attributes and misused attributes of XML, in the same order. -/
theorem xml_input_only_silences (options : Options) (hook : IdRepair.BuiltIn)
    (nodes : List Node) :
    let silent := firstPass { options with xmlTags := true } hook.rule nodes
    let outspoken := firstPass { options with xmlTags := false } hook.rule nodes
    silent.1.toNodes = outspoken.1.toNodes ∧
      silent.2.SameVerdict outspoken.2 ∧
      silent.2.diagnostics.toList = outspoken.2.diagnostics.toList.filter fun diagnostic =>
        !(diagnostic.kind == .unknownAttribute || diagnostic.kind == .xmlAttributeMisuse) := by
  intro silent outspoken
  have alike : List.Forall₂ (fun first second : Element =>
      (first.findings options.forXml hook.rule).through .whole =
        (second.findings options.forHtml hook.rule).through .xml)
      (Node.elementsAll nodes) (Node.elementsAll nodes) :=
    List.forall₂_same.mpr fun element _ => element.findings_forXml options hook
  obtain ⟨verdict, seen⟩ := seen_firstPass alike
  refine ⟨?_, verdict, ?_⟩
  · rw [toNodes_firstPass, toNodes_firstPass]
    congr 1
    funext element
    exact element.repair_forXml options hook
  · have listed (kind : DiagnosticKind) : DiagnosticKind.silencedForXml.contains kind =
        (kind == .unknownAttribute || kind == .xmlAttributeMisuse) := by
      cases kind <;> rfl
    rw [View.filterMap_whole, View.xml, View.filterMap_except] at seen
    simp only [listed] at seen
    exact seen

end Arena

end HtmlConformance
