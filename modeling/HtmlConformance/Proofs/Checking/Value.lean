import HtmlConformance.Checking.Value
import HtmlConformance.Proofs.Check.Attribute
import HtmlConformance.Proofs.Checking

namespace HtmlConformance

/-! The check of a value at work. It rewrites the value and reports as the rule for the value
judges it. -/

namespace Checking

variable (owner : Owner) (attr : Attribute) (pass : Pass)

@[simp] theorem run_setValue (value : String) :
    (setValue value).run attr pass = ((), ⟨{ attr with value := some value }, pass⟩) := rfl

@[simp] theorem run_reportBad :
    (reportBad owner).run attr pass =
      ((), ⟨attr, pass.absorb (owner.report .badAttributeValue attr)⟩) := by
  simp [reportBad]

@[simp] theorem run_requiredValue :
    (requiredValue owner).run attr pass =
      (attr.value, ⟨attr, if attr.value.isNone then
        pass.absorb (owner.report .missingAttributeValue attr) else pass⟩) := by
  cases valued : attr.value <;> simp [requiredValue, valued]

end Checking

namespace ValueRule

open Checking

/-- A check that does what a rule for values asks for. -/
def IsDoneBy (rule : ValueRule) (owner : Owner) (check : Checking Attribute Unit) : Prop :=
  ∀ attr pass, check.run attr pass =
    ((), ⟨rule.repair pass.state.options attr, pass.absorb (rule.findings owner attr)⟩)

/-- A rule that only tests a value is done by the test. -/
theorem isDoneBy_checkValue {rule : ValueRule} {owner : Owner} {passes : String → Bool}
    (needed : rule.needsValue = true)
    (judged : ∀ value, rule.judgeValue owner.isImageLike value =
      if passes value then .accepted else .bad)
    (fixed : ∀ options value, rule.repairValue options value = value) :
    rule.IsDoneBy owner (checkValue owner passes) := by
  intro attr pass
  rw [repair_of_fixed (fixed _)]
  cases valued : attr.value with
  | none => simp [checkValue, valued, findings, judge, needed]
  | some value =>
      cases passed : passes value <;>
        simp [checkValue, valued, findings, judge, judged, passed]

variable (owner : Owner)

/-- Without a backslash there is nothing to rewrite in a URL. -/
theorem map_slash_of_not_mem {value : String} (plain : '\\' ∉ value.toList) :
    (value.map fun char => if char = '\\' then '/' else char) = value := by
  rw [← String.toList_inj, String.toList_map]
  refine (List.map_congr_left fun char within => if_neg ?_).trans (List.map_id value.toList)
  intro backslash
  exact plain (backslash ▸ within)

theorem isDoneBy_checkUrl : url.IsDoneBy owner (checkUrl owner) := by
  rintro ⟨name, _ | value, delimiter, fragment⟩ pass
  · simp [checkUrl, findings, judge, needsValue, repair]
  · cases slashed : pass.state.options.slashUrls with
    | false => simp [checkUrl, findings, judge, judgeValue, repair, repairValue, slashed]
    | true =>
        by_cases held : '\\' ∈ value.toList
        · simp [checkUrl, findings, judge, judgeValue, repair, repairValue, slashed, held]
        · simp [checkUrl, findings, judge, judgeValue, repair, repairValue, slashed, held,
            map_slash_of_not_mem held]

/-- Rules for the place of a box are done alike. -/
theorem isDoneBy_checkPlace {rule : ValueRule} (needed : rule.needsValue = true)
    (judged : ∀ value, rule.judgeValue owner.isImageLike value =
      ValueGrammar.judgePlace owner.isImageLike value)
    (fixed : ∀ options value, rule.repairValue options value = value) :
    rule.IsDoneBy owner (checkPlace owner) := by
  intro attr pass
  rw [repair_of_fixed (fixed _)]
  cases valued : attr.value with
  | none => simp [checkPlace, valued, findings, judge, needed]
  | some value =>
      simp only [checkPlace, run_bind, run_requiredValue, valued, findings, judge, judged,
        ValueGrammar.judgePlace, run_ite]
      split
      case isTrue => simp
      case isFalse =>
        split
        case isTrue => cases owner.isImageLike <;> simp
        case isFalse => split <;> simp [Pass.absorb_append]

theorem isDoneBy_checkAlign : align.IsDoneBy owner (checkAlign owner) := by
  cases imageLike : owner.isImageLike with
  | false =>
      rw [checkAlign, imageLike]
      exact isDoneBy_checkValue rfl (by simp [judgeValue, imageLike]) fun _ _ => rfl
  | true =>
      rw [checkAlign, imageLike]
      exact isDoneBy_checkPlace owner rfl (by simp [judgeValue, imageLike]) fun _ _ => rfl

/-! ## Colours -/

section

variable {value : String}

/-- A number sign begins neither the name of a colour nor six digits. -/
theorem isColor_of_sign (signed : value.toList.head? = some '#') :
    ValueGrammar.isSixHex value.toList = false ∧
      ValueGrammar.isColor value = ValueGrammar.isColorNumber value.toList := by
  have six : ValueGrammar.isSixHex value.toList = false := by
    rcases List.head?_eq_some_iff.mp signed with ⟨later, letters⟩
    rw [letters, ValueGrammar.isSixHex, List.all_cons, Bool.and_eq_false_iff]
    exact .inr rfl
  have unnamed : Text.isOneOf value ValueGrammar.colorNames = false := by
    have names : (ValueGrammar.colorNames.all fun name =>
        (Text.folded name).toList.head? != some '#') = true := by cbv
    rw [Text.isOneOf, List.any_eq_false]
    intro name listed alike
    have head : (Text.folded name).toList.head? = some '#' := by
      rw [← (Text.alike_iff value name).mp alike, Text.folded, String.toList_map,
        List.head?_map, signed]
      rfl
    have other := List.all_eq_true.mp names name listed
    simp [head] at other
  rw [ValueGrammar.isColor, six, unnamed, Bool.or_false, Bool.or_false]
  exact ⟨rfl, rfl⟩

theorem isColorNumber_of_no_sign (unsigned : value.toList.head? ≠ some '#') :
    ValueGrammar.isColorNumber value.toList = false := by
  unfold ValueGrammar.isColorNumber
  split
  next letters => simp [letters] at unsigned
  next => rfl

end

theorem isDoneBy_checkColor : color.IsDoneBy owner (checkColor owner) := by
  rintro ⟨name, _ | value, delimiter, fragment⟩ pass
  · simp [checkColor, findings, judge, needsValue, repair]
  · by_cases signed : value.toList.head? = some '#'
    · have spelled := isColor_of_sign signed
      cases number : ValueGrammar.isColorNumber value.toList <;>
        simp [checkColor, findings, judge, judgeValue, repair, repairValue, signed, spelled, number]
    · have number := isColorNumber_of_no_sign signed
      cases six : ValueGrammar.isSixHex value.toList with
      | true =>
          simp [checkColor, findings, judge, judgeValue, repair, repairValue, signed, six,
            ValueGrammar.isColor]
      | false =>
          cases named : Text.isOneOf value ValueGrammar.colorNames <;>
            simp [checkColor, findings, judge, judgeValue, repair, repairValue, signed, six,
              number, named, ValueGrammar.isColor]

/-! ## All rules -/

theorem isDoneBy_pure {rule : ValueRule} (free : rule.needsValue = false)
    (judged : ∀ value, rule.judgeValue owner.isImageLike value = .accepted)
    (fixed : ∀ options value, rule.repairValue options value = value) :
    rule.IsDoneBy owner (pure ()) := by
  intro attr pass
  rw [repair_of_fixed (fixed _)]
  cases valued : attr.value <;> simp [findings, judge, valued, free, judged]

/-- The check that a rule stands for does what the rule asks for. -/
theorem isDoneBy_apply (rule : ValueRule) : rule.IsDoneBy owner (rule.apply owner) := by
  cases rule with
  | url => exact isDoneBy_checkUrl owner
  | align => exact isDoneBy_checkAlign owner
  | valign => exact isDoneBy_checkPlace owner rfl (fun _ => rfl) fun _ _ => rfl
  | color => exact isDoneBy_checkColor owner
  | script | bool | id | name => exact isDoneBy_pure owner rfl (fun _ => rfl) fun _ _ => rfl
  | _ => exact isDoneBy_checkValue rfl (fun _ => rfl) fun _ _ => rfl

end ValueRule

end HtmlConformance
