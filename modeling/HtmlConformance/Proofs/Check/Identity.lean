import HtmlConformance.Proofs.Checking.Element
import HtmlConformance.Proofs.Check.Copies
import HtmlConformance.Proofs.Check.Effect
import HtmlConformance.Proofs.Check.Fault
import HtmlConformance.Proofs.Check.Recheck

namespace HtmlConformance

/-! Ids and names of the elements that links can point at. After a check the first id agrees with
the name or is reported, and what the check says about ids it says again of its own result. -/

/-! ## Reports about attributes with one name -/

/-- Whether a report is about an attribute with this name. -/
def Diagnostic.isOn (name : String) (diagnostic : Diagnostic) : Bool :=
  diagnostic.attributeName.any fun written => Text.alike written name

namespace Findings

def reportsOn (name : String) (findings : Findings) : List Diagnostic :=
  findings.diagnostics.filter (Diagnostic.isOn name)

@[simp] theorem reportsOn_append (name : String) (first second : Findings) :
    (first ++ second).reportsOn name = first.reportsOn name ++ second.reportsOn name :=
  List.filter_append _ _

end Findings

theorem Repeats.reportsOn_findings (owner : Owner) (name : String)
    (attributes : List Attribute) :
    (findings owner attributes).reportsOn name =
      ((attributes.filter fun attr => attr.isNamed name).filter fun attr =>
        !attr.isTemplated).tail.map (.onAttribute .repeatedAttribute owner.tag) := by
  have named : Diagnostic.isOn name ∘ Diagnostic.onAttribute .repeatedAttribute owner.tag =
      fun attr => Text.folded attr.name == Text.folded name := rfl
  rw [Findings.reportsOn, diagnostics_findings, List.filter_map, named, filter_subjects,
    List.filter_filter]
  rfl

/-- Any id will do, and so will one without a value. -/
theorem Attribute.fault?_of_id {options : Options} {owner : Owner} {attr : Attribute}
    (identifies : attr.isNamed "id" = true) : attr.fault? options owner = none := by
  have listed := AttributeRule.mem_of_find? Supplied.id.find?_name
  rw [fault?_of_valueRule listed identifies rfl]
  cases attr.value <;> rfl

theorem Sweep.reportsOn_id (options : Options) (owner : Owner) (skip : Option String)
    (attributes : List Attribute) :
    (run options owner skip attributes).findings.reportsOn "id" = [] := by
  rw [Findings.reportsOn, List.filter_eq_nil_iff, run, Findings.diagnostics_joinAll]
  intro diagnostic raised about
  rcases List.mem_flatMap.mp raised with ⟨findings, member, raised⟩
  rcases List.mem_map.mp member with ⟨attr, _, rfl⟩
  split at raised
  · cases raised
  · rw [Attribute.diagnostics_findings] at raised
    rcases List.mem_map.mp raised with ⟨kind, fault, rfl⟩
    rw [Attribute.fault?_of_id about] at fault
    cases fault

/-! ## The rule for ids -/

namespace IdRepair

/-- The first id of an element if it is not the name of the element. -/
def clash? (element : Element) : Option Attribute :=
  (nameValue? element).bind fun name =>
    (element.find? "id").filter fun id => id.value != some name

theorem reportsOn_copyName (options : Options) (owner : Owner) (element : Element) :
    (copyName.findings options owner element).reportsOn "id" =
      (clash? element).toList.map (.onAttribute .badAttributeValue owner.tag) := by
  simp only [copyName, clash?]
  cases nameValue? element with
  | none => rfl
  | some name =>
      cases found : element.find? "id" with
      | none => cases options.xmlOutput <;> rfl
      | some id =>
          have about : (Diagnostic.onAttribute .badAttributeValue owner.tag id).isOn "id" = true :=
            Element.isNamed_of_find? found
          by_cases agrees : id.value = some name
          · simp [agrees, Findings.reportsOn]
          · simp [agrees, Findings.reportsOn, Owner.report, Findings.raise, about,
              Option.filter_some]

end IdRepair

theorem Attribute.repair_id {attr : Attribute} (options : Options)
    (identifies : attr.isNamed "id" = true) : attr.repair options = attr := by
  have rule : attr.valueRule? = some .id := valueRule?_of_isNamed (by cbv) identifies
  exact repair_of_fixed attr options rule fun _ => rfl

/-! ## Elements that links can point at -/

namespace Element

theorem check_of_pointed {element : Element}
    (pointed : element.isTagged "a" = true ∨ element.isTagged "map" = true) :
    element.check = .anchor ∨ element.check = .map := by
  rcases pointed with anchor | map
  · exact .inl (eq_of_beq (element.check_beq_anchor.trans anchor))
  · exact .inr (eq_of_beq (element.check_beq_map.trans map))

/-- The ids of an element, of which the first counts. -/
def ids (element : Element) : List Attribute :=
  element.attributes.filter fun attr => attr.isNamed "id"

theorem find?_id (element : Element) : element.find? "id" = element.ids.head? :=
  List.head?_filter.symm

theorem ids_swept (check : ElementCheck) (options : Options) (owner : Owner)
    (element : Element) : (check.swept options owner element).ids = element.ids := by
  simp only [ids, ElementCheck.attributes_swept, List.filter_map, Function.comp_def,
    Attribute.isNamed_repair]
  rw [List.map_congr_left fun attr member =>
    Attribute.repair_id options (List.mem_filter.mp member).2, List.map_id'']
  exact fun _ => rfl

theorem nameValue?_swept (check : ElementCheck) (options : Options) (owner : Owner)
    (element : Element) :
    IdRepair.nameValue? (check.swept options owner element) = IdRepair.nameValue? element := by
  rw [IdRepair.nameValue?, ElementCheck.find?_swept, IdRepair.nameValue?]
  cases found : element.find? "name" with
  | none => rfl
  | some name => rw [Option.map_some, name.repair_name options (isNamed_of_find? found)]

theorem clash?_swept (check : ElementCheck) (options : Options) (owner : Owner)
    (element : Element) :
    IdRepair.clash? (check.swept options owner element) = IdRepair.clash? element := by
  rw [IdRepair.clash?, nameValue?_swept, find?_id, ids_swept, IdRepair.clash?, find?_id]

section

variable {element : Element} (options : Options)
    (pointed : element.check = .anchor ∨ element.check = .map)
include pointed

theorem rewrite_of_pointed (owner : Owner) :
    element.check.rewrite options owner element = element.check.swept options owner element := by
  apply ElementCheck.rewrite_eq_swept
  rcases pointed with check | check <;> rw [check] <;> decide

theorem attributes_repair_of_pointed :
    (element.repair options IdRepair.copyName).attributes =
      (element.check.swept options (.ofTag element.tag) element).attributes ++
        (IdRepair.BuiltIn.copyName.appended options element).toList := by
  have attributes := element.check.attributes_repair options .copyName (.ofTag element.tag) element
  rw [element.check.appended_rewrite_of_pointed options .copyName _ element pointed,
    rewrite_of_pointed options pointed] at attributes
  exact attributes

theorem repair_keeps_id {index : Nat} {id : Attribute}
    (found : element.attributes[index]? = some id) (identifies : id.isNamed "id" = true) :
    (element.repair options IdRepair.copyName).attributes[index]? = some id := by
  have swept : (element.check.swept options (.ofTag element.tag) element).attributes[index]? =
      some id := by
    rw [ElementCheck.attributes_swept, List.getElem?_map, found, Option.map_some,
      Attribute.repair_id options identifies]
  have inside := (List.getElem?_eq_some_iff.mp swept).1
  rw [attributes_repair_of_pointed options pointed, List.getElem?_append_left inside, swept]

theorem ids_repair :
    (element.repair options IdRepair.copyName).ids =
      element.ids ++ (IdRepair.BuiltIn.copyName.appended options element).toList := by
  have new : (IdRepair.BuiltIn.copyName.appended options element).toList.filter
      (fun attr => attr.isNamed "id") =
        (IdRepair.BuiltIn.copyName.appended options element).toList := by
    rw [List.filter_eq_self]
    intro attr member
    rcases IdRepair.BuiltIn.valued_of_appended (Option.mem_toList.mp member) with ⟨_, rfl, _⟩
    exact Text.alike_self "id"
  rw [ids, attributes_repair_of_pointed options pointed, List.filter_append, new, ← ids,
    ids_swept]

theorem find?_repair_id {id : Attribute} (found : element.find? "id" = some id) :
    (element.repair options IdRepair.copyName).find? "id" = some id := by
  rw [find?_id, ids_repair options pointed, List.head?_append, ← find?_id, found,
    Option.some_or]

/-- A check leaves the ids as they are, or the name of the element becomes its only one. -/
theorem ids_repair_cases :
    (element.repair options IdRepair.copyName).ids = element.ids ∨
      ∃ name, IdRepair.nameValue? element = some name ∧ element.ids = [] ∧
        (element.repair options IdRepair.copyName).ids = [.valued "id" name] := by
  have ids := ids_repair options pointed
  cases appends : IdRepair.BuiltIn.copyName.appended options element with
  | none =>
      rw [appends, Option.toList_none, List.append_nil] at ids
      exact .inl ids
  | some attr =>
      rw [appends, Option.toList_some] at ids
      simp only [IdRepair.BuiltIn.appended] at appends
      split at appends
      next absent =>
        rcases Option.map_eq_some_iff.mp appends with ⟨name, named, rfl⟩
        rw [Bool.and_eq_true, Bool.not_eq_true'] at absent
        have none : element.ids = [] := by
          rw [Element.ids, List.filter_eq_nil_iff]
          intro other member
          exact ne_true_of_eq_false (isNamed_eq_false_of_not_has absent.2 member)
        rw [none, List.nil_append] at ids
        exact .inr ⟨name, named, none, ids⟩
      next => cases appends

/-- An element with a name has an id after the check if it had one before, and always in XHTML. -/
theorem has_repair_of_named {name : String} (named : IdRepair.nameValue? element = some name) :
    (element.repair options IdRepair.copyName).has "id" =
      (options.xmlOutput || element.has "id") := by
  have has (other : Element) : other.has "id" = other.ids.head?.isSome := by
    rw [has_eq_isSome, find?_id]
  rw [has, ids_repair options pointed, List.head?_append, Option.isSome_or, ← has]
  cases output : options.xmlOutput <;> cases identified : element.has "id" <;>
    simp [IdRepair.BuiltIn.appended, output, identified, named]

theorem nameValue?_repair :
    IdRepair.nameValue? (element.repair options IdRepair.copyName) =
      IdRepair.nameValue? element := by
  have new : (IdRepair.BuiltIn.copyName.appended options element).toList.find?
      (fun attr => attr.isNamed "name") = none := by
    rw [List.find?_eq_none]
    intro attr member
    rcases IdRepair.BuiltIn.valued_of_appended (Option.mem_toList.mp member) with ⟨value, rfl, _⟩
    have other : (Attribute.valued "id" value).isNamed "name" = false := by cbv
    exact ne_true_of_eq_false other
  rw [IdRepair.nameValue?, find?, attributes_repair_of_pointed options pointed,
    List.find?_append, new, Option.or_none]
  exact nameValue?_swept element.check options _ element

theorem clash?_repair :
    IdRepair.clash? (element.repair options IdRepair.copyName) = IdRepair.clash? element := by
  rw [IdRepair.clash?, nameValue?_repair options pointed, IdRepair.clash?, find?_id, find?_id]
  rcases ids_repair_cases options pointed with same | ⟨name, named, none, only⟩
  · rw [same]
  · simp [named, none, only, Attribute.valued]

theorem clash?_of_named {name : String} {id : Attribute}
    (named : IdRepair.nameValue? element = some name)
    (first : (element.repair options IdRepair.copyName).find? "id" = some id) :
    IdRepair.clash? element = if id.value = some name then none else some id := by
  rw [← clash?_repair options pointed, IdRepair.clash?, nameValue?_repair options pointed, named,
    Option.bind_some, first, Option.filter_some]
  by_cases agrees : id.value = some name <;> simp [agrees]

theorem reportsOn_id :
    (element.findings options IdRepair.copyName).reportsOn "id" =
      (element.ids.filter fun attr => !attr.isTemplated).tail.map
          (.onAttribute .repeatedAttribute element.tag) ++
        (IdRepair.clash? element).toList.map
          (.onAttribute .badAttributeValue element.tag) := by
  let owner := Owner.ofTag element.tag
  let swept := element.check.swept options owner element
  have warned : (if owner.rule.isNone then
      Findings.warn (unknownTagWarning element.tag) else ∅).reportsOn "id" = [] := by
    split <;> rfl
  have rule : element.check.ruleFindings options IdRepair.copyName owner
      (element.check.sweep options owner element) swept =
        IdRepair.copyName.findings options owner swept := by
    rcases pointed with check | check <;> simp only [check, ElementCheck.ruleFindings]
  have clash : IdRepair.clash? swept = IdRepair.clash? element :=
    clash?_swept element.check options owner element
  have quiet : (element.check.sweep options owner element).findings.reportsOn "id" = [] :=
    Sweep.reportsOn_id options owner _ element.attributes
  simp only [findings, ElementCheck.findings, Findings.reportsOn_append]
  rw [warned, rule, quiet, Repeats.reportsOn_findings, IdRepair.reportsOn_copyName, clash,
    List.nil_append, List.append_nil]
  rfl

theorem reportsOn_id_repair :
    ((element.repair options IdRepair.copyName).findings options IdRepair.copyName).reportsOn
        "id" =
      (element.findings options IdRepair.copyName).reportsOn "id" := by
  have tag : (element.repair options IdRepair.copyName).tag = element.tag :=
    element.tag_repair options .copyName
  have check : (element.repair options IdRepair.copyName).check = element.check :=
    element.check_repair options .copyName
  have repeats :
      ((element.repair options IdRepair.copyName).ids.filter fun attr =>
          !attr.isTemplated).tail =
        (element.ids.filter fun attr => !attr.isTemplated).tail := by
    rcases ids_repair_cases options pointed with same | ⟨name, _, none, only⟩
    · rw [same]
    · rw [none, only]
      rfl
  rw [reportsOn_id options pointed, reportsOn_id options (check ▸ pointed), repeats, tag,
    clash?_repair options pointed]

/-- Of the reports about ids only one can be about the value, and it is about the first id. -/
theorem badValues_id :
    (((element.findings options IdRepair.copyName).reportsOn "id").filter fun diagnostic =>
        diagnostic.kind == .badAttributeValue) =
      (IdRepair.clash? element).toList.map
        (.onAttribute .badAttributeValue element.tag) := by
  rw [reportsOn_id options pointed, List.filter_append, List.filter_map, List.filter_map]
  have repeats : (fun diagnostic : Diagnostic => diagnostic.kind == .badAttributeValue) ∘
      Diagnostic.onAttribute .repeatedAttribute element.tag = fun _ => false := rfl
  have clash : (fun diagnostic : Diagnostic => diagnostic.kind == .badAttributeValue) ∘
      Diagnostic.onAttribute .badAttributeValue element.tag = fun _ => true := rfl
  rw [repeats, clash, List.filter_false, List.filter_true, List.map_nil, List.nil_append]

end

end Element

/-- A check of an anchor or an image map never touches an id. If the first name has no value, no
id is inserted and none is bad. If it has one, an id is inserted in XHTML alone, and the first id
has the value of the name or is reported, once, as it is written. A second check inserts nothing
and says the same about ids. -/
theorem Pass.visit_matches_id_to_name (pass : Pass) {element : Element}
    (pointed : element.isTagged "a" = true ∨ element.isTagged "map" = true) :
    let options := pass.state.options
    let after := pass.visit IdRepair.copyName element
    ∃ raised, after.2.diagnostics.toList = pass.diagnostics.toList ++ raised ∧
      let about := raised.filter (Diagnostic.isOn "id")
      let bad := about.filter fun diagnostic => diagnostic.kind == .badAttributeValue
      (∀ (index : Nat) (id : Attribute), element.attributes[index]? = some id →
        id.isNamed "id" = true → after.1.attributes[index]? = some id) ∧
      (IdRepair.nameValue? element = none → after.1.ids = element.ids ∧ bad = []) ∧
      (∀ name, IdRepair.nameValue? element = some name →
        after.1.has "id" = (options.xmlOutput || element.has "id") ∧
        ∀ id, after.1.find? "id" = some id →
          (id.value = some name ∧ bad = []) ∨
            (id.value ≠ some name ∧
              bad = [.onAttribute .badAttributeValue element.tag id])) ∧
      ∀ later : Pass, later.state.options = options →
        let again := later.visit IdRepair.copyName after.1
        again.1 = after.1 ∧
          ∃ repeated, again.2.diagnostics.toList = later.diagnostics.toList ++ repeated ∧
            repeated.filter (Diagnostic.isOn "id") = about := by
  rw [visit_eq]
  intro options after
  have checked := Element.check_of_pointed pointed
  have bad := Element.badValues_id options checked
  refine ⟨_, pass.diagnostics_absorb _, ?_, ?_, ?_, ?_⟩
  · intro index id found identifies
    exact Element.repair_keeps_id options checked found identifies
  · intro nameless
    have quiet : IdRepair.clash? element = none := by
      rw [IdRepair.clash?, nameless, Option.bind_none]
    rw [quiet] at bad
    rcases Element.ids_repair_cases options checked with same | ⟨name, named, _⟩
    · exact ⟨same, bad⟩
    · rw [nameless] at named
      cases named
  · intro name named
    refine ⟨Element.has_repair_of_named options checked named, ?_⟩
    intro id found
    rw [Element.clash?_of_named options checked named found] at bad
    by_cases agrees : id.value = some name
    · rw [if_pos agrees] at bad
      exact .inl ⟨agrees, bad⟩
    · rw [if_neg agrees] at bad
      exact .inr ⟨agrees, bad⟩
  · intro later same
    rw [visit_eq]
    intro again
    have second : again.1 =
        (element.repair options IdRepair.copyName).repair later.state.options
          IdRepair.copyName := rfl
    refine ⟨?_, _, later.diagnostics_absorb _, ?_⟩
    · rw [second, same]
      exact element.repair_repair options .copyName
    · rw [same]
      exact Element.reportsOn_id_repair options checked

/-- The id of an anchor differs from its name in a letter. -/
theorem Pass.visit_matches_id_to_name_of_anchor :
    let pass := Pass.start { xmlOutput := true }
    let element : Element := ⟨"A", [.valued "Name" "top", .valued "ID" "Top"]⟩
    let after := pass.visit IdRepair.copyName element
    element.isTagged "a" = true ∧
      (∃ raised, after.2.diagnostics.toList = pass.diagnostics.toList ++ raised ∧
        (raised.filter (Diagnostic.isOn "id")).filter (fun diagnostic =>
            diagnostic.kind == .badAttributeValue) =
          [.onAttribute .badAttributeValue "A" (.valued "ID" "Top")]) ∧
      (after.2.visit IdRepair.copyName after.1).1 = after.1 := by
  intro pass element after
  have tagged : element.isTagged "a" = true := by cbv
  have names : (Attribute.valued "Name" "top").isNamed "name" = true := by cbv
  have other : (Attribute.valued "Name" "top").isNamed "id" = false := by cbv
  have identifies : (Attribute.valued "ID" "Top").isNamed "id" = true := by cbv
  have written : element.find? "name" = some (.valued "Name" "top") := by
    simp [Element.find?, element, names]
  have name : IdRepair.nameValue? element = some "top" := by
    rw [IdRepair.nameValue?, written, Option.bind_some, Attribute.valued]
  have first : element.find? "id" = some (.valued "ID" "Top") := by
    simp [Element.find?, element, other, identifies]
  have placed : after.1.find? "id" = some (.valued "ID" "Top") := by
    simp only [after, visit_eq]
    exact Element.find?_repair_id _ (Element.check_of_pointed (.inl tagged)) first
  rcases pass.visit_matches_id_to_name (.inl tagged) with ⟨raised, parts, _, _, named, again⟩
  have second := again after.2 (pass.options_visit IdRepair.copyName element)
  rcases (named "top" name).2 _ placed with ⟨agrees, _⟩ | ⟨_, reported⟩
  · exact absurd agrees (by decide)
  · exact ⟨tagged, ⟨raised, parts, reported⟩, second.1⟩

end HtmlConformance
