import HtmlConformance.Proofs.Check.RuleFindings

namespace HtmlConformance

/-! The attributes that reports on repeated and on unknown names are about. Of all attributes with
one name and without template code, every one but the first is reported as repeated, once. -/

/-! ## Repeated names -/

namespace Repeats

/-- The attributes that are reported as repeated, in the order of the reports: for each attribute
the next one with its name. -/
def subjects : List Attribute → List Attribute
  | [] => []
  | attr :: later =>
      (if attr.isTemplated then [] else (first? attr.name later).toList) ++ subjects later

theorem findings_eq (owner : Owner) (attributes : List Attribute) :
    findings owner attributes =
      .joinAll ((subjects attributes).map (owner.report .repeatedAttribute)) := by
  induction attributes with
  | nil => rfl
  | cons attr later induction =>
      rw [findings, subjects, List.map_append, Findings.joinAll_append, induction, headFindings]
      split
      · rfl
      · cases first? attr.name later with
        | none => rfl
        | some repeated => simp

theorem first?_eq (name : String) (later : List Attribute) :
    first? name later = (later.filter fun attr =>
      !attr.isTemplated && Text.folded attr.name == Text.folded name).head? :=
  List.head?_filter.symm

theorem name_of_first? {name : String} {later : List Attribute} {repeated : Attribute}
    (found : first? name later = some repeated) :
    Text.folded repeated.name = Text.folded name := by
  have tested := List.find?_some found
  rw [Bool.and_eq_true] at tested
  exact (Text.alike_iff _ _).mp tested.2

/-- Among the attributes with one name it does not matter which of the others stand between
them: the first is not reported, and all others are. -/
theorem filter_subjects (name : String) (attributes : List Attribute) :
    ((subjects attributes).filter fun attr => Text.folded attr.name == name) =
      (attributes.filter fun attr =>
        !attr.isTemplated && Text.folded attr.name == name).tail := by
  induction attributes with
  | nil => rfl
  | cons attr later induction =>
      rw [subjects, List.filter_append, induction, List.filter_cons]
      cases attr.isTemplated with
      | true => rfl
      | false =>
          by_cases named : Text.folded attr.name = name
          · subst named
            -- The next attribute with the name is the first of those that follow.
            rw [first?_eq]
            cases group : later.filter fun other =>
                !other.isTemplated && Text.folded other.name == Text.folded attr.name with
            | nil => simp
            | cons repeated rest =>
                have here : repeated ∈ later.filter fun other =>
                    !other.isTemplated && Text.folded other.name == Text.folded attr.name := by
                  rw [group]
                  exact List.mem_cons_self
                have same := (Bool.and_eq_true_iff.mp (List.mem_filter.mp here).2).2
                simp [same]
          · cases found : first? attr.name later with
            | none => simp [named]
            | some repeated => simp [name_of_first? found, named]

theorem subperm_subjects (attributes : List Attribute) :
    (subjects attributes).Subperm (attributes.filter fun attr => !attr.isTemplated) := by
  apply subperm_of_groups fun attr => Text.folded attr.name
  intro name
  rw [filter_subjects, List.filter_filter]
  simp only [Bool.and_comm]
  exact (List.tail_sublist _).subperm

end Repeats

/-! ## Reports of one kind -/

namespace Findings

def reportsOf (kind : DiagnosticKind) (findings : Findings) : List Diagnostic :=
  findings.diagnostics.filter fun diagnostic => diagnostic.kind == kind

@[simp] theorem reportsOf_empty (kind : DiagnosticKind) : (∅ : Findings).reportsOf kind = [] := rfl

@[simp] theorem reportsOf_narrow (kind : DiagnosticKind) (versions : VersionSet) :
    (narrow versions).reportsOf kind = [] := rfl

@[simp] theorem reportsOf_flag (kind : DiagnosticKind) (defect : Defect) :
    (flag defect).reportsOf kind = [] := rfl

theorem reportsOf_ite (kind : DiagnosticKind) (condition : Prop) [Decidable condition]
    (first second : Findings) :
    (if condition then first else second).reportsOf kind =
      if condition then first.reportsOf kind else second.reportsOf kind :=
  apply_ite (reportsOf kind) condition first second

@[simp] theorem reportsOf_append (kind : DiagnosticKind) (first second : Findings) :
    (first ++ second).reportsOf kind = first.reportsOf kind ++ second.reportsOf kind :=
  List.filter_append _ _

theorem reportsOf_joinAll (kind : DiagnosticKind) (list : List Findings) :
    (joinAll list).reportsOf kind = list.flatMap (reportsOf kind) := by
  induction list with
  | nil => rfl
  | cons head tail induction => simp [induction]

theorem Within.reportsOf_eq_nil {reach : Reach} {findings : Findings}
    (within : findings.Within reach) {kind : DiagnosticKind} (unlisted : kind ∉ reach.kinds) :
    findings.reportsOf kind = [] := by
  rw [reportsOf, List.filter_eq_nil_iff]
  intro diagnostic raised same
  exact unlisted (eq_of_beq same ▸ within.kind_mem raised)

end Findings

theorem Owner.reportsOf_reports (owner : Owner) (kind : DiagnosticKind)
    (attributes : List Attribute) :
    (Findings.joinAll (attributes.map (owner.report kind))).reportsOf kind =
      attributes.map (.onAttribute kind owner.tag) := by
  induction attributes with
  | nil => rfl
  | cons attr later induction =>
      rw [List.map_cons, Findings.joinAll_cons, Findings.reportsOf_append, induction]
      simp [Findings.reportsOf, report, Findings.raise, Diagnostic.onAttribute]

@[simp] theorem Owner.reportsOf_reportMissing (owner : Owner) (name : String) :
    (owner.reportMissing name).reportsOf .missingAttribute =
      [.onName .missingAttribute owner.tag name] := rfl

/-! ## Unknown names -/

/-- Whether a check reports the name of the attribute as unknown. -/
def Attribute.isUnknown (options : Options) (owner : Owner) (attr : Attribute) : Bool :=
  attr.rule?.isNone && !attr.isExcused options owner

theorem AttributeRule.reportsOf_unknown {rule : AttributeRule} (listed : rule ∈ table)
    (options : Options) (owner : Owner) (attr : Attribute) :
    (rule.findings options owner attr).reportsOf .unknownAttribute = [] := by
  have versions : (rule.versionFindings options owner attr).reportsOf .unknownAttribute = [] :=
    (within_versionFindings options owner attr listed).reportsOf_eq_nil (by decide)
  rw [findings, Findings.reportsOf_append, versions]
  split
  · rfl
  · exact (ValueRule.within_findings owner attr _).reportsOf_eq_nil (by decide)

theorem Attribute.reportsOf_unknown (options : Options) (owner : Owner) (attr : Attribute) :
    (attr.findings options owner).reportsOf .unknownAttribute =
      if attr.isUnknown options owner then [.onAttribute .unknownAttribute owner.tag attr]
      else [] := by
  unfold findings isUnknown
  cases found : attr.rule? with
  | some rule =>
      exact AttributeRule.reportsOf_unknown (AttributeRule.mem_of_find? found) options owner attr
  | none => cases attr.isExcused options owner <;> rfl

theorem Sweep.reportsOf_unknown (options : Options) (owner : Owner) (skip : Option String)
    (attributes : List Attribute) :
    (run options owner skip attributes).findings.reportsOf .unknownAttribute =
      (attributes.filter (Attribute.isUnknown options owner)).map
        (.onAttribute .unknownAttribute owner.tag) := by
  have each (attr : Attribute) :
      (if skip.any (resolvesTo attr) then ∅ else attr.findings options owner : Findings).reportsOf
          .unknownAttribute =
        if attr.isUnknown options owner then [.onAttribute .unknownAttribute owner.tag attr]
        else [] := by
    split
    next skipped =>
      rcases (Option.any_eq_true _ _).mp skipped with ⟨name, _, resolved⟩
      rcases (Option.any_eq_true _ _).mp resolved with ⟨rule, found, _⟩
      simp [Attribute.isUnknown, found]
    next => exact attr.reportsOf_unknown options owner
  simp only [run, Findings.reportsOf_joinAll, List.flatMap_map, each]
  induction attributes with
  | nil => rfl
  | cons attr later induction =>
      rw [List.flatMap_cons, induction, List.filter_cons]
      cases attr.isUnknown options owner <;> rfl

/-! ## Elements -/

namespace Element

/-- The attributes of an element that are reported as repeated. -/
def repeated (element : Element) : List Attribute := Repeats.subjects element.attributes

/-- The attributes of an element that are reported as unknown. -/
def unknown (options : Options) (element : Element) : List Attribute :=
  element.attributes.filter (Attribute.isUnknown options (.ofTag element.tag))

variable (options : Options) (hook : IdRepair.BuiltIn) (element : Element)

theorem subperm_repeated :
    element.repeated.Subperm (element.attributes.filter fun attr => !attr.isTemplated) :=
  Repeats.subperm_subjects element.attributes

theorem subperm_unknown :
    (element.unknown options).Subperm
      (element.attributes.filter fun attr => !attr.isTemplated) := by
  apply List.Sublist.subperm
  apply List.monotone_filter_right
  intro attr reported
  cases templated : attr.isTemplated with
  | false => rfl
  | true => simp [Attribute.isUnknown, Attribute.isExcused, templated] at reported

/-- Reports on repeated names come first, then those on single attributes, then those of the rule
for the element. -/
theorem reportsOf_parts (kind : DiagnosticKind) :
    (element.findings options hook.rule).reportsOf kind =
      (Repeats.findings (.ofTag element.tag) element.attributes).reportsOf kind ++
        (element.check.sweep options (.ofTag element.tag) element).findings.reportsOf kind ++
        (element.check.ruleFindings options hook.rule (.ofTag element.tag)
          (element.check.sweep options (.ofTag element.tag) element)
          (element.check.swept options (.ofTag element.tag) element)).reportsOf kind := by
  have warned : (if (Owner.ofTag element.tag).rule.isNone then
      Findings.warn (unknownTagWarning element.tag) else ∅).reportsOf kind = [] := by
    split <;> rfl
  simp only [findings, ElementCheck.findings, Findings.reportsOf_append, warned, List.nil_append]

theorem reportsOf_findings {kind : DiagnosticKind}
    (unruled : ∀ sized, kind ∉ (element.check.ruleReach sized).kinds) :
    (element.findings options hook.rule).reportsOf kind =
      (Repeats.findings (.ofTag element.tag) element.attributes).reportsOf kind ++
        (element.check.sweep options (.ofTag element.tag) element).findings.reportsOf kind := by
  have rule := (element.check.within_ruleFindings options hook (.ofTag element.tag)
    (element.check.sweep options (.ofTag element.tag) element)
    (element.check.swept options (.ofTag element.tag) element)).reportsOf_eq_nil (unruled _)
  rw [reportsOf_parts, rule, List.append_nil]

theorem reportsOf_repeated :
    (element.findings options hook.rule).reportsOf .repeatedAttribute =
      element.repeated.map (.onAttribute .repeatedAttribute element.tag) := by
  have unruled (sized : Bool) :
      .repeatedAttribute ∉ (element.check.ruleReach sized).kinds := by
    cases element.check <;> decide +revert
  have swept : (element.check.sweep options (.ofTag element.tag) element).findings.reportsOf
      .repeatedAttribute = [] :=
    (Sweep.within_findings options _ _ element.attributes).reportsOf_eq_nil (by decide)
  rw [reportsOf_findings options hook element unruled, swept, List.append_nil,
    Repeats.findings_eq, Owner.reportsOf_reports]
  rfl

theorem reportsOf_unknown :
    (element.findings options hook.rule).reportsOf .unknownAttribute =
      (element.unknown options).map (.onAttribute .unknownAttribute element.tag) := by
  have unruled (sized : Bool) :
      .unknownAttribute ∉ (element.check.ruleReach sized).kinds := by
    cases element.check <;> decide +revert
  have unrepeated : (Repeats.findings (.ofTag element.tag) element.attributes).reportsOf
      .unknownAttribute = [] :=
    (Repeats.within_findings _ element.attributes).reportsOf_eq_nil (by decide)
  rw [reportsOf_findings options hook element unruled, unrepeated, List.nil_append,
    ElementCheck.sweep, Sweep.reportsOf_unknown]
  rfl

end Element

end HtmlConformance
