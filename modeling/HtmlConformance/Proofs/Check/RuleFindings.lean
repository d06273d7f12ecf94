import HtmlConformance.Proofs.Check.Repair

namespace HtmlConformance

/-! What a check can find on an element, and what its own rule alone finds: the accessibility
defects, the namespace and the missing image maps, which come from no single attribute. -/

/-! ## What a check can find -/

namespace IdRepair.BuiltIn

def reach : Findings.Reach where
  narrowings := [Supplied.id.rule.versions]
  kinds := [.badAttributeValue]

theorem within_findings (hook : BuiltIn) (options : Options) (owner : Owner)
    (element : Element) : (hook.rule.findings options owner element).Within reach := by
  cases hook with
  | none => exact .empty
  | copyName =>
      simp only [rule, IdRepair.copyName]
      split
      · exact .ite (.narrow List.mem_cons_self) .empty
      · exact .ite .empty (owner.within_report _ List.mem_cons_self)
      · exact .empty

end IdRepair.BuiltIn

namespace ElementCheck

variable (check : ElementCheck) (options : Options) (hook : IdRepair.BuiltIn) (owner : Owner)
    (sweep : Sweep) (element : Element)

/-- What is in reach of the own rule of a check, on an element with a size or without one. -/
def ruleReach (sized : Bool) : ElementCheck → Findings.Reach
  | html => { namespaced := true }
  | script | style | link => { kinds := [.missingAttribute] }
  | table => { defects := [.missingSummary], kinds := [.missingAttribute] }
  | caption =>
      { narrowings := [.iframe, .from32]
        kinds := [.missingAttributeValue, .badAttributeValue] }
  | line => { kinds := [.proprietaryAttributeValue] }
  | image =>
      { narrowings := if sized then [.everything \ .only .html20] else []
        defects := [.missingImageAlt, .missingImageMap]
        kinds := [.missingAttribute, .missingImagemap] }
  | area => { defects := [.missingLinkAlt], kinds := [.missingAttribute] }
  | anchor | map => IdRepair.BuiltIn.reach
  | tableCell => { narrowings := if sized then [.everything \ .only .html40Strict] else [] }
  | generic => {}

theorem within_captionFindings (sized : Bool) :
    (captionFindings owner element).Within (caption.ruleReach sized) := by
  unfold captionFindings
  split
  · exact .empty
  · split
    · exact owner.within_report _ (by simp [ruleReach])
    · refine .ite ?_ (.ite ?_ ?_)
      · exact .narrow (by simp [ruleReach])
      · exact .narrow (by simp [ruleReach])
      · exact owner.within_report _ (by simp [ruleReach])

theorem within_ruleFindings (swept : Element) :
    (check.ruleFindings options hook.rule owner sweep swept).Within
      (check.ruleReach (sweep.has "width" || sweep.has "height")) := by
  have missing {reach : Findings.Reach} (seen name : String)
      (listed : .missingAttribute ∈ reach.kinds) :
      (unlessSeen sweep seen (owner.reportMissing name)).Within reach :=
    .ite .empty (.raise listed)
  have flagged {reach : Findings.Reach} (name : String) {defect : Defect}
      (listed : defect ∈ reach.defects) (raised : .missingAttribute ∈ reach.kinds) :
      (unlessSeen sweep name (.flag defect ++ owner.reportMissing name)).Within reach :=
    .ite .empty (.append (.flag listed) (.raise raised))
  cases check with
  | html => exact .ite (.namespaced rfl) .empty
  | script | style => exact missing "type" "type" List.mem_cons_self
  | table => exact .ite .empty (flagged "summary" List.mem_cons_self List.mem_cons_self)
  | caption => exact within_captionFindings owner swept _
  | line =>
      simp only [ruleFindings]
      split
      · split
        · exact .empty
        · exact owner.within_report _ List.mem_cons_self
      · exact .empty
  | image =>
      refine .append (.append (.append ?_ ?_) ?_) ?_
      · exact iteInduction (fun sized => .narrow (by simp [ruleReach, sized])) fun _ => .empty
      · exact flagged "alt" List.mem_cons_self List.mem_cons_self
      · exact .ite .empty (missing "datafld" "src" List.mem_cons_self)
      · exact .ite (.append (.flag (List.mem_cons_of_mem _ List.mem_cons_self))
          (.raise (List.mem_cons_of_mem _ List.mem_cons_self))) .empty
  | area =>
      exact .append (flagged "alt" List.mem_cons_self List.mem_cons_self)
        (missing "href" "href" List.mem_cons_self)
  | anchor | map => exact hook.within_findings options owner swept
  | tableCell =>
      exact iteInduction (fun sized => .narrow (by simp [ruleReach, sized])) fun _ => .empty
  | link => exact .ite (missing "type" "type" List.mem_cons_self) .empty
  | generic => exact .empty

theorem has_sweep_consulted :
    ∀ name ∈ consultedNames, (check.sweep options owner element).has name = element.has name :=
  fun _ consulted => has_sweep check options owner element (isKnown_of_consulted consulted)

def reach (sized : Bool) : Findings.Reach :=
  Repeats.reach ++ Attribute.reach ++ check.ruleReach sized

theorem within_findings :
    (check.findings options hook.rule owner element).Within
      (check.reach (element.has "width" || element.has "height")) := by
  have seen := has_sweep_consulted check options owner element
  have rule := within_ruleFindings check options hook owner (check.sweep options owner element)
    (check.swept options owner element)
  rw [seen "width" (by simp [consultedNames]), seen "height" (by simp [consultedNames])] at rule
  exact .join (.join (Repeats.within_findings owner element.attributes)
    (Sweep.within_findings options owner check.skips element.attributes)) rule

/-! ## Defects -/

/-- Whether an element that has to pass the check shows an accessibility defect. -/
def hasDefect (defect : Defect) : Bool :=
  match check, defect with
  | table, .missingSummary =>
      !element.has "summary" &&
        !(options.doctype == some .html20 || options.doctype == some .html32)
  | image, .missingImageAlt => !element.has "alt"
  | image, .missingImageMap => element.has "ismap" && !element.has "usemap"
  | area, .missingLinkAlt => !element.has "alt"
  | _, _ => false

@[simp] theorem contains_defects_unlessSeen (name : String) (findings : Findings)
    (defect : Defect) :
    (unlessSeen sweep name findings).defects.contains defect =
      (!sweep.has name && findings.defects.contains defect) := by
  unfold unlessSeen
  split
  next seen => simp [seen]
  next unseen => simp [unseen]

@[simp] theorem defects_reportMissing (name : String) : (owner.reportMissing name).defects = ∅ :=
  rfl

theorem contains_defects_ruleFindings
    (seen : ∀ name ∈ consultedNames, sweep.has name = element.has name) (swept : Element)
    (defect : Defect) :
    (check.ruleFindings options hook.rule owner sweep swept).defects.contains defect =
      check.hasDefect options element defect := by
  simp only [consultedNames, List.forall_mem_cons] at seen
  have within := within_ruleFindings check options hook owner sweep swept
  cases check with
  | table =>
      rw [ruleFindings, Findings.contains_defects_ite]
      unfold hasDefect
      generalize (options.doctype == some .html20 || options.doctype == some .html32) = early
      cases early <;> cases defect <;> simp [seen, Bool.beq_eq_decide_eq]
  | image =>
      simp only [ruleFindings, imageFindings, Findings.defects_append, FlagSet.contains_union,
        Findings.contains_defects_ite]
      cases defect <;> simp [hasDefect, seen, Bool.beq_eq_decide_eq]
  | area => cases defect <;> simp [ruleFindings, hasDefect, seen, Bool.beq_eq_decide_eq]
  | _ =>
      rw [within.defects_eq_empty rfl, FlagSet.contains_empty]
      cases defect <;> rfl

/-! ## The namespace -/

theorem xhtml_ruleFindings (swept : Element) :
    (check.ruleFindings options hook.rule owner sweep swept).xhtml =
      (check == html && sweep.has "xmlns") := by
  have within := within_ruleFindings check options hook owner sweep swept
  cases check with
  | html => cases seen : sweep.has "xmlns" <;> simp [ruleFindings, seen, Findings.namespaced]
  | _ => exact within.xhtml_eq_false rfl

/-! ## Missing image maps -/

@[simp] theorem countOf_unlessSeen (name : String) (findings : Findings)
    (kind : DiagnosticKind) :
    (unlessSeen sweep name findings).countOf kind =
      if sweep.has name then 0 else findings.countOf kind :=
  Findings.countOf_ite _ _ _ kind

@[simp] theorem countOf_reportMissing (name : String) (kind : DiagnosticKind) :
    (owner.reportMissing name).countOf kind =
      if DiagnosticKind.missingAttribute == kind then 1 else 0 :=
  Findings.countOf_raise _ kind

/-- An image without a map of the client's is reported as often as it is flagged. -/
theorem countOf_ruleFindings
    (seen : ∀ name ∈ consultedNames, sweep.has name = element.has name) (swept : Element) :
    (check.ruleFindings options hook.rule owner sweep swept).countOf .missingImagemap =
      (check.hasDefect options element .missingImageMap).toNat := by
  have within := within_ruleFindings check options hook owner sweep swept
  cases check with
  | image =>
      simp only [consultedNames, List.forall_mem_cons] at seen
      simp only [ruleFindings, imageFindings, Findings.countOf_append, Findings.countOf_ite]
      cases mapped : element.has "ismap" && !element.has "usemap" <;>
        simp [hasDefect, seen, mapped, Diagnostic.onElement]
  | _ => exact within.countOf_eq_zero .missingImagemap (by simp [ruleReach, IdRepair.BuiltIn.reach])

/-! ## Whole checks -/

theorem contains_defects_findings (defect : Defect) :
    (check.findings options hook.rule owner element).defects.contains defect =
      check.hasDefect options element defect := by
  have repeats := Repeats.within_findings owner element.attributes
  have swept := Sweep.within_findings options owner check.skips element.attributes
  simp only [findings, Findings.defects_append, repeats.defects_eq_empty rfl, sweep,
    swept.defects_eq_empty rfl, FlagSet.empty_union]
  exact contains_defects_ruleFindings check options hook owner _ element
    (has_sweep_consulted check options owner element) _ defect

theorem xhtml_findings :
    (check.findings options hook.rule owner element).xhtml =
      (check == html && element.has "xmlns") := by
  have repeats := Repeats.within_findings owner element.attributes
  have swept := Sweep.within_findings options owner check.skips element.attributes
  have seen := has_sweep_consulted check options owner element "xmlns" (by simp [consultedNames])
  rw [findings, Findings.xhtml_append, Findings.xhtml_append, repeats.xhtml_eq_false rfl, sweep,
    swept.xhtml_eq_false rfl, ← sweep, xhtml_ruleFindings, seen]
  rfl

theorem countOf_findings :
    (check.findings options hook.rule owner element).countOf .missingImagemap =
      (check.hasDefect options element .missingImageMap).toNat := by
  have repeats := Repeats.within_findings owner element.attributes
  have swept := Sweep.within_findings options owner check.skips element.attributes
  simp only [findings, Findings.countOf_append, sweep, Nat.zero_add,
    repeats.countOf_eq_zero .missingImagemap (by decide),
    swept.countOf_eq_zero .missingImagemap (by decide)]
  exact countOf_ruleFindings check options hook owner _ element
    (has_sweep_consulted check options owner element) _

end ElementCheck

namespace Element

variable (element : Element) (options : Options) (hook : IdRepair.BuiltIn)

/-- What is found on an element is what its check finds: that its tag is unknown is told to the
operator only. -/
theorem within_warned (tag : String) :
    Findings.Within { warns := true } (if (Owner.ofTag tag).rule.isNone then
      .warn (unknownTagWarning tag) else ∅) :=
  .ite (.warn _ rfl) .empty

theorem within_findings :
    (element.findings options hook.rule).Within
      ({ warns := true } ++ element.check.reach (element.has "width" || element.has "height")) :=
  .join (within_warned element.tag) (element.check.within_findings options hook _ element)

theorem contains_defects_findings (defect : Defect) :
    (element.findings options hook.rule).defects.contains defect =
      element.check.hasDefect options element defect := by
  rw [findings, Findings.defects_append, (within_warned element.tag).defects_eq_empty rfl,
    FlagSet.empty_union, ElementCheck.contains_defects_findings]

theorem xhtml_findings :
    (element.findings options hook.rule).xhtml =
      (element.check == .html && element.has "xmlns") := by
  rw [findings, Findings.xhtml_append, (within_warned element.tag).xhtml_eq_false rfl,
    Bool.false_or, ElementCheck.xhtml_findings]

theorem countOf_findings :
    (element.findings options hook.rule).countOf .missingImagemap =
      (element.check.hasDefect options element .missingImageMap).toNat := by
  rw [findings, Findings.countOf_append,
    (within_warned element.tag).countOf_eq_zero _ List.not_mem_nil, Nat.zero_add,
    ElementCheck.countOf_findings]

end Element

end HtmlConformance
