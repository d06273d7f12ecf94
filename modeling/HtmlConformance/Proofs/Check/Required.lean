import HtmlConformance.Proofs.Checking.Element
import HtmlConformance.Proofs.Check.Effect
import HtmlConformance.Proofs.Check.Subjects
import HtmlConformance.Proofs.Rule.Element

namespace HtmlConformance

/-! The attributes that elements have to have. What an element lacks is said here without the
checks, from its tag and from what is written on it before any repair; a check reports just that,
and supplies nothing of it without a report. -/

/-! ## Requirements -/

/-- An attribute that elements with a tag have to have, in the case that is given. -/
structure Requirement where
  tag : String
  name : String
  applies : Options → Element → Bool := fun _ _ => true

def requirements : List Requirement :=
  [
    { tag := "script", name := "type" },
    { tag := "style", name := "type" },
    { tag := "link", name := "type", applies := fun _ element =>
        (element.find? "rel").any fun relation => relation.value == some "stylesheet" },
    { tag := "table", name := "summary", applies := fun options _ =>
        !(options.doctype == some .html20 || options.doctype == some .html32) },
    { tag := "img", name := "alt" },
    { tag := "img", name := "src", applies := fun _ element => !element.has "datafld" },
    { tag := "area", name := "alt" },
    { tag := "area", name := "href" }
  ]

/-- The names of the attributes that an element has to have and has not. -/
def Element.lacks (options : Options) (element : Element) : List String :=
  (requirements.filter fun requirement =>
    element.isTagged requirement.tag && !element.has requirement.name &&
      requirement.applies options element).map Requirement.name

/-! ## Reports -/

namespace ElementCheck

@[simp] theorem reportsOf_unlessSeen (sweep : Sweep) (name : String) (findings : Findings)
    (kind : DiagnosticKind) :
    (unlessSeen sweep name findings).reportsOf kind =
      if sweep.has name then [] else findings.reportsOf kind :=
  Findings.reportsOf_ite kind _ _ _

variable (options : Options) (hook : IdRepair.BuiltIn) (owner : Owner) (element : Element)

theorem reportsOf_imageFindings (sweep : Sweep) :
    (imageFindings owner sweep).reportsOf .missingAttribute =
      (if sweep.has "alt" then [] else [.onName .missingAttribute owner.tag "alt"]) ++
        if sweep.has "src" || sweep.has "datafld" then []
        else [.onName .missingAttribute owner.tag "src"] := by
  have unmapped : (Findings.flag .missingImageMap ++
      .raise (.onElement .missingImagemap owner.tag)).reportsOf .missingAttribute = [] := rfl
  cases source : sweep.has "src" <;>
    simp [imageFindings, Findings.reportsOf_ite, unmapped, source]

/-- The rule of a check reports what an element lacks, if it is told what stands on the element:
which names there are, and whether a link is to a style sheet. -/
theorem reportsOf_ruleFindings {sweep : Sweep} {swept : Element}
    (seen : ∀ name ∈ consultedNames, sweep.has name = element.has name)
    (related : element.check = .link → isStyleSheet swept = isStyleSheet element) :
    (element.check.ruleFindings options hook.rule owner sweep swept).reportsOf .missingAttribute =
      (element.lacks options).map (.onName .missingAttribute owner.tag) := by
  have within := within_ruleFindings element.check options hook owner sweep swept
  simp only [consultedNames, List.forall_mem_cons] at seen
  simp only [Element.lacks, requirements, List.filter_cons, List.filter_nil,
    ← element.check_beq_script, ← element.check_beq_style, ← element.check_beq_link,
    ← element.check_beq_table, ← element.check_beq_image, ← element.check_beq_area]
  generalize element.check = check at *
  cases check with
  | script | style =>
      cases typed : element.has "type" <;>
        simp [ruleFindings, seen, typed, Bool.beq_eq_decide_eq]
  | link =>
      rw [ruleFindings, Findings.reportsOf_ite, related rfl, isStyleSheet]
      cases (element.find? "rel").any fun relation => relation.value == some "stylesheet" <;>
        cases typed : element.has "type" <;> simp [seen, typed, Bool.beq_eq_decide_eq]
  | table =>
      rw [ruleFindings, Findings.reportsOf_ite]
      cases options.doctype == some .html20 || options.doctype == some .html32 <;>
        cases summed : element.has "summary" <;> simp [seen, summed, Bool.beq_eq_decide_eq]
  | image =>
      rw [ruleFindings, reportsOf_imageFindings]
      cases described : element.has "alt" <;> cases sourced : element.has "src" <;>
        cases bound : element.has "datafld" <;>
          simp [seen, described, sourced, bound, Bool.beq_eq_decide_eq]
  | area =>
      cases described : element.has "alt" <;> cases linked : element.has "href" <;>
        simp [ruleFindings, seen, described, linked, Bool.beq_eq_decide_eq]
  | _ =>
      rw [within.reportsOf_eq_nil (by simp [ruleReach, IdRepair.BuiltIn.reach])]
      rfl

/-- Behind the attributes that were there stands what a check appends. -/
theorem drop_attributes_repair (check : ElementCheck) :
    (check.repair options hook.rule owner element).attributes.drop element.attributes.length =
      (check.appended options hook owner (check.rewrite options owner element)).toList := by
  rw [attributes_repair, (check.sameButValues_rewrite options owner element).length_eq,
    List.drop_left]

end ElementCheck

/-! ## Elements -/

namespace Element

variable {options : Options} {hook : IdRepair.BuiltIn} {element : Element}

theorem reportsOf_missing (options : Options) (hook : IdRepair.BuiltIn) (element : Element) :
    (element.findings options hook.rule).reportsOf .missingAttribute =
      (element.lacks options).map (.onName .missingAttribute element.tag) := by
  let owner := Owner.ofTag element.tag
  have repeats : (Repeats.findings owner element.attributes).reportsOf .missingAttribute = [] :=
    (Repeats.within_findings owner element.attributes).reportsOf_eq_nil (by decide)
  have swept : (element.check.sweep options owner element).findings.reportsOf
      .missingAttribute = [] :=
    (Sweep.within_findings options owner _ element.attributes).reportsOf_eq_nil (by decide)
  have related (checked : element.check = .link) :
      ElementCheck.isStyleSheet (element.check.swept options owner element) =
        ElementCheck.isStyleSheet element := by
    have untabled : element.check ≠ .table := by simp [checked]
    rw [← element.check.rewrite_eq_swept options owner element untabled,
      element.check.isStyleSheet_rewrite options owner element untabled]
  have rule := ElementCheck.reportsOf_ruleFindings options hook owner element
    (element.check.has_sweep_consulted options owner element) related
  rw [reportsOf_parts, repeats, swept, rule]
  rfl

theorem mem_lacks {name : String} :
    name ∈ element.lacks options ↔
      ∃ requirement ∈ requirements, (element.isTagged requirement.tag = true ∧
        element.has requirement.name = false ∧ requirement.applies options element = true) ∧
        requirement.name = name := by
  simp [lacks, and_assoc]

/-- Besides ids only that is supplied which an element lacks. -/
theorem lacks_of_appends {attr : Attribute}
    (appends : ElementCheck.Appends options hook element element.check attr) :
    attr.name = "id" ∨ attr.name ∈ element.lacks options := by
  rw [mem_lacks]
  have style := element.check_beq_style
  have link := element.check_beq_link
  have script := element.check_beq_script
  have image := element.check_beq_image
  generalize element.check = check at *
  cases appends with
  | style untyped => simp [requirements, ← style, untyped, Attribute.valued]
  | link untyped related sheet =>
      simp [requirements, ← link, untyped, related, sheet, Attribute.valued]
  | script untyped => simp [requirements, ← script, untyped, Attribute.valued]
  | image undescribed => simp [requirements, ← image, undescribed, Attribute.valued]
  | id => exact .inl rfl

end Element

/-- A visit reports as missing what the element lacks, no more and no less, in the order of the
requirements and with the tag as it is written. It reports this of what it supplies itself, too. -/
theorem Pass.visit_reports_lacks (pass : Pass) (hook : IdRepair.BuiltIn) (element : Element) :
    let lacks := element.lacks pass.state.options
    let after := pass.visit hook.rule element
    (∃ raised, after.2.diagnostics.toList = pass.diagnostics.toList ++ raised ∧
        raised.filter (fun diagnostic => diagnostic.kind == .missingAttribute) =
          lacks.map (.onName .missingAttribute element.tag)) ∧
      ∀ attr ∈ after.1.attributes.drop element.attributes.length,
        attr.name = "id" ∨ attr.name ∈ lacks := by
  rw [visit_eq]
  intro lacks after
  constructor
  · exact ⟨_, Pass.diagnostics_absorb pass _,
      element.reportsOf_missing pass.state.options hook⟩
  · intro attr supplied
    have appended := ElementCheck.drop_attributes_repair pass.state.options hook
      (.ofTag element.tag) element element.check
    have member := appended ▸ supplied
    exact Element.lacks_of_appends
      (ElementCheck.appends_of_appended _ (Option.mem_toList.mp member))

end HtmlConformance
