import HtmlConformance.Check.Element
import HtmlConformance.Proofs.Findings

namespace HtmlConformance

/-! The check of a single attribute: how its name is looked up, and what a repair of its
value leaves as it was. -/

/-! ## Names -/

namespace AttributeRule

def IsKnown (name : String) : Prop := (find? name).map AttributeRule.name = some name

theorem name_of_find? {name : String} {rule : AttributeRule} (found : find? name = some rule) :
    rule.name = Text.folded name := by
  simpa using List.find?_some found

theorem mem_of_find? {name : String} {rule : AttributeRule} (found : find? name = some rule) :
    rule ∈ table := by
  unfold find? at found
  exact List.mem_of_find?_eq_some found

theorem contains_xml_of_title {rule : AttributeRule} (listed : rule ∈ table)
    (titled : (rule.identity == .title) = true) : rule.versions.contains .xml = false := by
  have rows : (table.all fun rule =>
      !(rule.identity == .title && rule.versions.contains .xml)) = true := by cbv
  have row := List.all_eq_true.mp rows rule listed
  simpa [titled] using row

theorem IsKnown.folded_eq {name : String} (known : IsKnown name) : Text.folded name = name := by
  rcases Option.map_eq_some_iff.mp known with ⟨rule, found, named⟩
  exact (name_of_find? found).symm.trans named

theorem IsKnown.alike_eq {left right : String} (knownLeft : IsKnown left)
    (knownRight : IsKnown right) : Text.alike left right = (left == right) := by
  rw [Text.alike, knownLeft.folded_eq, knownRight.folded_eq]

theorem find?_congr {left right : String} (alike : Text.alike left right = true) :
    find? left = find? right := by
  simp only [find?, (Text.alike_iff left right).mp alike]

end AttributeRule

namespace Attribute

theorem name_of_rule? {attr : Attribute} {rule : AttributeRule} (found : attr.rule? = some rule) :
    rule.name = Text.folded attr.name :=
  AttributeRule.name_of_find? found

theorem isNamed_iff {name : String} (known : AttributeRule.IsKnown name) (attr : Attribute) :
    attr.isNamed name = true ↔ ∃ rule, attr.rule? = some rule ∧ rule.name = name := by
  constructor
  · intro named
    rcases Option.map_eq_some_iff.mp known with ⟨rule, found, same⟩
    exact ⟨rule, (AttributeRule.find?_congr named).trans found, same⟩
  · rintro ⟨rule, found, same⟩
    rw [isNamed, Text.alike_iff, known.folded_eq, ← name_of_rule? found, same]

/-- A rule for values that the table gives to one name only belongs to the attributes of this
name. -/
theorem valueRule?_eq_iff {name : String} {value : ValueRule}
    (known : AttributeRule.IsKnown name)
    (rows : (AttributeRule.table.all fun rule =>
      (rule.value == some value) == (rule.name == name)) = true) (attr : Attribute) :
    attr.valueRule? = some value ↔ attr.isNamed name = true := by
  have agree {rule : AttributeRule} (found : attr.rule? = some rule) :
      rule.value = some value ↔ rule.name = name := by
    have row := List.all_eq_true.mp rows rule (AttributeRule.mem_of_find? found)
    rw [beq_iff_eq, Bool.eq_iff_iff, beq_iff_eq, beq_iff_eq] at row
    exact row
  rw [isNamed_iff known, valueRule?, Option.bind_eq_some_iff]
  constructor
  · rintro ⟨rule, found, valued⟩
    exact ⟨rule, found, (agree found).mp valued⟩
  · rintro ⟨rule, found, named⟩
    exact ⟨rule, found, (agree found).mpr named⟩

end Attribute

namespace Sweep

theorem resolvesTo_eq_isNamed {name : String} (known : AttributeRule.IsKnown name)
    (attr : Attribute) : resolvesTo attr name = attr.isNamed name := by
  rw [Bool.eq_iff_iff, Attribute.isNamed_iff known]
  simp [resolvesTo, Option.any_eq_true]

/-- What is skipped is seen all the same. -/
theorem has_run_eq_any_resolvesTo (options : Options) (owner : Owner) (skip : Option String)
    (attributes : List Attribute) (name : String) :
    (run options owner skip attributes).has name =
      attributes.any fun attr => resolvesTo attr name := by
  rw [has, run, List.any_filterMap]
  rfl

theorem has_run {name : String} (known : AttributeRule.IsKnown name) (options : Options)
    (owner : Owner) (skip : Option String) (attributes : List Attribute) :
    (run options owner skip attributes).has name =
      attributes.any fun attr => attr.isNamed name := by
  rw [has_run_eq_any_resolvesTo]
  simp only [resolvesTo_eq_isNamed known]

end Sweep

/-! ## Repairs of values -/

namespace ValueGrammar

/-- A number sign in front of six digits makes a number of a colour, which is not six digits
any more. -/
theorem sign_of_isSixHex {value : List Char} (six : isSixHex value = true) :
    isColorNumber ('#' :: value) = true ∧ isSixHex ('#' :: value) = false := by
  simp only [isSixHex, Bool.and_eq_true, beq_iff_eq] at six
  simp [isColorNumber, isSixHex, six]

end ValueGrammar

namespace ValueRule

theorem repairValue_repairValue (rule : ValueRule) (options : Options) (value : String) :
    rule.repairValue options (rule.repairValue options value) =
      rule.repairValue options value := by
  cases rule with
  | url =>
      simp only [repairValue]
      cases options.slashUrls with
      | false => rfl
      | true =>
          apply String.toList_inj.mp
          simp only [if_true, String.toList_map, List.map_map]
          apply List.map_congr_left
          intro char _
          simp only [Function.comp_apply]
          split <;> simp_all
  | color =>
      simp only [repairValue]
      by_cases six : ValueGrammar.isSixHex value.toList = true
      · simp [six, (ValueGrammar.sign_of_isSixHex six).2]
      · simp [six]
  | _ => rfl

theorem repair_of_fixed {rule : ValueRule} {options : Options}
    (fixed : ∀ value, rule.repairValue options value = value) (attr : Attribute) :
    rule.repair options attr = attr := by
  have same : rule.repairValue options = fun value => value := funext fixed
  simp [repair, same]

theorem judge_repair (rule : ValueRule) (options : Options) (imageLike : Bool)
    (value : Option String) :
    rule.judge imageLike (value.map (rule.repairValue options)) =
      rule.judge imageLike value := by
  cases value with
  | none => rfl
  | some value =>
      cases rule with
      | color =>
          simp only [judge, Option.map_some, judgeValue, repairValue, ValueGrammar.isColor]
          by_cases six : ValueGrammar.isSixHex value.toList = true
          · simp [six, (ValueGrammar.sign_of_isSixHex six).1]
          · simp [six]
      | _ => rfl

end ValueRule

namespace Attribute

variable (attr : Attribute) (options : Options)

@[simp] theorem name_repair : (attr.repair options).name = attr.name := by
  unfold repair
  split <;> rfl

@[simp] theorem delimiter_repair : (attr.repair options).delimiter = attr.delimiter := by
  unfold repair
  split <;> rfl

@[simp] theorem fragment_repair : (attr.repair options).fragment = attr.fragment := by
  unfold repair
  split <;> rfl

@[simp] theorem isNamed_repair (name : String) :
    (attr.repair options).isNamed name = attr.isNamed name := by
  rw [isNamed, name_repair, isNamed]

@[simp] theorem rule?_repair : (attr.repair options).rule? = attr.rule? := by
  rw [rule?, name_repair, rule?]

@[simp] theorem valueRule?_repair : (attr.repair options).valueRule? = attr.valueRule? := by
  rw [valueRule?, rule?_repair, valueRule?]

theorem repair_of_valueRule? {rule : ValueRule} (found : attr.valueRule? = some rule) :
    attr.repair options = rule.repair options attr := by
  simp [repair, found]

theorem repair_of_no_valueRule? (missing : attr.valueRule? = none) :
    attr.repair options = attr := by
  simp [repair, missing]

theorem repair_of_fixed {rule : ValueRule} (found : attr.valueRule? = some rule)
    (fixed : ∀ value, rule.repairValue options value = value) : attr.repair options = attr := by
  rw [repair_of_valueRule? attr options found, ValueRule.repair_of_fixed fixed]

@[simp] theorem repair_repair : (attr.repair options).repair options = attr.repair options := by
  cases found : attr.valueRule? with
  | none => simp [repair_of_no_valueRule?, found]
  | some rule =>
      have again : (attr.repair options).valueRule? = some rule := by simp [found]
      rw [repair_of_valueRule? _ _ again, repair_of_valueRule? _ _ found]
      simp [ValueRule.repair, Function.comp_def, ValueRule.repairValue_repairValue]

end Attribute

/-! ## Findings up to values -/

section

variable {left right : Attribute} (sameName : left.name = right.name)
include sameName

theorem Owner.report_withoutValue (owner : Owner) (kind : DiagnosticKind) :
    (owner.report kind left).mapDiagnostics .withoutValue =
      (owner.report kind right).mapDiagnostics .withoutValue := by
  simp [report, Diagnostic.onAttribute, Diagnostic.withoutValue, sameName]

theorem ValueRule.findings_withoutValue (rule : ValueRule) (owner : Owner)
    (judged : rule.judge owner.isImageLike left.value =
      rule.judge owner.isImageLike right.value) :
    (rule.findings owner left).mapDiagnostics .withoutValue =
      (rule.findings owner right).mapDiagnostics .withoutValue := by
  unfold findings
  rw [judged]
  cases rule.judge owner.isImageLike right.value with
  | accepted => rfl
  | missing => exact owner.report_withoutValue sameName _
  | bad => exact owner.report_withoutValue sameName _
  | proprietary =>
      rw [Findings.mapDiagnostics_append, Findings.mapDiagnostics_append,
        owner.report_withoutValue sameName]

theorem AttributeRule.versionFindings_withoutValue (rule : AttributeRule) (options : Options)
    (owner : Owner) :
    (rule.versionFindings options owner left).mapDiagnostics .withoutValue =
      (rule.versionFindings options owner right).mapDiagnostics .withoutValue := by
  unfold versionFindings
  split
  · rfl
  · split
    · split
      · rfl
      · exact owner.report_withoutValue sameName _
    · rfl

theorem AttributeRule.findings_withoutValue (rule : AttributeRule) (options : Options)
    (owner : Owner)
    (judged : ∀ valueRule, rule.value = some valueRule →
      valueRule.judge owner.isImageLike left.value =
        valueRule.judge owner.isImageLike right.value) :
    (rule.findings options owner left).mapDiagnostics .withoutValue =
      (rule.findings options owner right).mapDiagnostics .withoutValue := by
  simp only [findings, Findings.mapDiagnostics_append,
    rule.versionFindings_withoutValue sameName]
  cases valued : rule.value with
  | none => rfl
  | some valueRule =>
      simp only [valueRule.findings_withoutValue sameName owner (judged valueRule valued)]

end

namespace Attribute

/-- Two forms of one attribute that differ at most in the value, which the checks judge
alike. -/
structure SameButValue (options : Options) (before after : Attribute) : Prop where
  name : after.name = before.name
  delimiter : after.delimiter = before.delimiter
  fragment : after.fragment = before.fragment
  findings : ∀ owner, (after.findings options owner).mapDiagnostics .withoutValue =
    (before.findings options owner).mapDiagnostics .withoutValue

namespace SameButValue

variable {options : Options} {before between after : Attribute}

theorem refl (attr : Attribute) : SameButValue options attr attr :=
  ⟨rfl, rfl, rfl, fun _ => rfl⟩

theorem trans (first : SameButValue options before between)
    (second : SameButValue options between after) : SameButValue options before after :=
  ⟨second.name.trans first.name, second.delimiter.trans first.delimiter,
    second.fragment.trans first.fragment,
    fun owner => (second.findings owner).trans (first.findings owner)⟩

theorem isNamed (same : SameButValue options before after) (name : String) :
    after.isNamed name = before.isNamed name := by
  rw [Attribute.isNamed, same.name, Attribute.isNamed]

theorem isTemplated (same : SameButValue options before after) :
    after.isTemplated = before.isTemplated := by
  rw [Attribute.isTemplated, same.fragment, Attribute.isTemplated]

theorem rule? (same : SameButValue options before after) : after.rule? = before.rule? := by
  rw [Attribute.rule?, same.name, Attribute.rule?]

/-- A new value is of no account if the rule for values judges it like the old one. -/
theorem of_judge (attr : Attribute) (value : Option String)
    (judged : ∀ rule imageLike, attr.valueRule? = some rule →
      rule.judge imageLike value = rule.judge imageLike attr.value) :
    SameButValue options attr { attr with value } where
  name := rfl
  delimiter := rfl
  fragment := rfl
  findings owner := by
    have excused : ({ attr with value } : Attribute).isExcused options owner =
        attr.isExcused options owner := rfl
    have resolved : ({ attr with value } : Attribute).rule? = attr.rule? := rfl
    simp only [Attribute.findings, excused, resolved]
    cases found : attr.rule? with
    | none =>
        simp only
        split
        · rfl
        · exact owner.report_withoutValue rfl _
    | some rule =>
        have sameName : ({ attr with value } : Attribute).name = attr.name := rfl
        apply rule.findings_withoutValue sameName
        intro valueRule valued
        exact judged valueRule _ (by simp [valueRule?, found, valued])

theorem of_repair (attr : Attribute) : SameButValue options attr (attr.repair options) := by
  cases found : attr.valueRule? with
  | none =>
      rw [repair_of_no_valueRule? attr options found]
      exact refl attr
  | some rule =>
      rw [repair_of_valueRule? attr options found]
      apply of_judge
      intro applied imageLike applies
      rw [Option.some.inj (applies.symm.trans found)]
      exact rule.judge_repair options imageLike attr.value

end SameButValue

end Attribute

end HtmlConformance
