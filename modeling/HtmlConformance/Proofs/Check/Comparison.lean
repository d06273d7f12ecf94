import HtmlConformance.Proofs.View

namespace HtmlConformance

/-! What the rule of a check reads of an element. Two elements in which all that is the same are
judged alike, as far as a view shows it, and are supplied with the same attribute. -/

/-- The names of the attributes whose values the rules of checks read, but for the source of a
line. -/
def readNames : List String := ["align", "id", "language", "name", "rel"]

variable {view : View} {owner counterpart : Owner}

/-- Two attributes, each on an owner of its own, with one value; what is reported on either looks
the same. -/
structure Attribute.ReadAlike (view : View) (owner counterpart : Owner)
    (first second : Attribute) : Prop where
  value : first.value = second.value
  report : ∀ kind, (owner.report kind first).through view =
    (counterpart.report kind second).through view

/-- Two elements that have the same attributes, as far as rules ask, with the same values, as far
as rules read them; what is reported on either looks the same. -/
structure Element.ReadAlike (view : View) (owner counterpart : Owner)
    (first second : Element) : Prop where
  has : ∀ name ∈ consultedNames, first.has name = second.has name
  find? : ∀ name ∈ readNames,
    Option.Rel (Attribute.ReadAlike view owner counterpart) (first.find? name) (second.find? name)
  missing : ∀ name, (owner.reportMissing name).through view =
    (counterpart.reportMissing name).through view
  unmapped : (Findings.raise (.onElement .missingImagemap owner.tag)).through view =
    (Findings.raise (.onElement .missingImagemap counterpart.tag)).through view

variable {before after : Element} {left right : Options}

/-! ## What is read -/

namespace Element.ReadAlike

variable (alike : before.ReadAlike view owner counterpart after)
include alike

theorem nameValue?_eq : IdRepair.nameValue? before = IdRepair.nameValue? after := by
  have named := alike.find? "name" (by decide)
  unfold IdRepair.nameValue?
  generalize before.find? "name" = first, after.find? "name" = second at named ⊢
  cases named with
  | some both => exact both.value
  | none => rfl

theorem isStyleSheet_eq :
    ElementCheck.isStyleSheet before = ElementCheck.isStyleSheet after := by
  have related := alike.find? "rel" (by decide)
  unfold ElementCheck.isStyleSheet
  generalize before.find? "rel" = first, after.find? "rel" = second at related ⊢
  cases related with
  | some both => simp only [Option.any_some, both.value]
  | none => rfl

theorem isJavaScript_eq :
    ElementCheck.isJavaScript before = ElementCheck.isJavaScript after := by
  have spoken := alike.find? "language" (by decide)
  unfold ElementCheck.isJavaScript
  generalize before.find? "language" = first, after.find? "language" = second at spoken ⊢
  cases spoken with
  | some both => simp only [both.value]
  | none => rfl

end Element.ReadAlike

/-! ## What rules find -/

theorem IdRepair.BuiltIn.findings_through (hook : BuiltIn)
    (output : left.xmlOutput = right.xmlOutput)
    (alike : before.ReadAlike view owner counterpart after) :
    (hook.rule.findings left owner before).through view =
      (hook.rule.findings right counterpart after).through view := by
  cases hook with
  | none => rfl
  | copyName =>
      have identified := alike.find? "id" (by decide)
      simp only [rule, IdRepair.copyName, alike.nameValue?_eq, output]
      generalize before.find? "id" = first, after.find? "id" = second at identified ⊢
      cases IdRepair.nameValue? after with
      | none => cases identified <;> rfl
      | some name =>
          cases identified with
          | none => rfl
          | some both => simp only [both.value, Findings.through_ite, both.report]

namespace ElementCheck

theorem captionFindings_through (alike : before.ReadAlike view owner counterpart after) :
    (captionFindings owner before).through view =
      (captionFindings counterpart after).through view := by
  have placed := alike.find? "align" (by decide)
  unfold captionFindings
  generalize before.find? "align" = first, after.find? "align" = second at placed ⊢
  cases placed with
  | none => rfl
  | @some align other both =>
      simp only [both.value]
      cases other.value with
      | none => exact both.report _
      | some value => simp only [Findings.through_ite, Findings.through_narrow, both.report]

/-- The rule of a check finds the same on elements that it reads alike. A line is asked for one
more attribute, its source. -/
theorem ruleFindings_through (check : ElementCheck) (hook : IdRepair.BuiltIn)
    {sweep swept : Sweep} (doctype : left.doctype = right.doctype)
    (output : left.xmlOutput = right.xmlOutput)
    (seen : ∀ name ∈ consultedNames, sweep.has name = swept.has name)
    (alike : before.ReadAlike view owner counterpart after)
    (source : check = .line →
      Option.Rel (fun first second =>
        (owner.report .proprietaryAttributeValue first).through view =
          (counterpart.report .proprietaryAttributeValue second).through view)
        (before.find? "src") (after.find? "src")) :
    (check.ruleFindings left hook.rule owner sweep before).through view =
      (check.ruleFindings right hook.rule counterpart swept after).through view := by
  simp only [consultedNames, List.forall_mem_cons] at seen
  cases check with
  | html => simp only [ruleFindings, seen, Findings.through_ite]
  | script | style => simp only [ruleFindings, unlessSeen, seen, Findings.through_ite, alike.missing]
  | table =>
      simp only [ruleFindings, unlessSeen, seen, doctype, Findings.through_ite,
        Findings.through_append, alike.missing, Findings.through_flag]
  | caption => exact captionFindings_through alike
  | line =>
      have sourced := source rfl
      simp only [ruleFindings, seen, Findings.through_ite]
      generalize before.find? "src" = first, after.find? "src" = second at sourced ⊢
      cases sourced with
      | none => rfl
      | some same => simp only [same]
  | image =>
      simp only [ruleFindings, imageFindings, unlessSeen, seen, Findings.through_ite,
        Findings.through_append, Findings.through_flag, Findings.through_narrow, alike.missing,
        alike.unmapped]
  | area =>
      simp only [ruleFindings, unlessSeen, seen, Findings.through_ite, Findings.through_append,
        Findings.through_flag, alike.missing]
  | anchor | map => exact hook.findings_through output alike
  | tableCell => simp only [ruleFindings, seen, Findings.through_ite, Findings.through_narrow]
  | link =>
      simp only [ruleFindings, unlessSeen, seen, alike.isStyleSheet_eq, Findings.through_ite,
        alike.missing]
  | generic => rfl

/-! ## What checks append -/

theorem appended_eq (check : ElementCheck) (hook : IdRepair.BuiltIn)
    (output : left.xmlOutput = right.xmlOutput)
    (fallback : check = .image → left.fallbackAlt = right.fallbackAlt)
    (alike : before.ReadAlike view owner counterpart after) :
    check.appended left hook owner before = check.appended right hook counterpart after := by
  have typed := has_sweep check left owner before Supplied.type.isKnown_name
  have typed' := has_sweep check right counterpart after Supplied.type.isKnown_name
  have described := has_sweep check left owner before Supplied.alt.isKnown_name
  have described' := has_sweep check right counterpart after Supplied.alt.isKnown_name
  have has := alike.has
  simp only [consultedNames, List.forall_mem_cons] at has
  simp only [Supplied.name] at typed typed' described described'
  cases check with
  | style => simp only [appended, inserted, typed, typed', has]
  | script => simp only [appended, inserted, typed, typed', has, alike.isJavaScript_eq]
  | link => simp only [appended, inserted, typed, typed', has, alike.isStyleSheet_eq]
  | image => simp only [appended, inserted, described, described', has, fallback rfl]
  | anchor | map =>
      cases hook with
      | none => rfl
      | copyName =>
          simp only [appended, IdRepair.BuiltIn.appended, has, alike.nameValue?_eq, output]
  | _ => rfl

end ElementCheck

end HtmlConformance
