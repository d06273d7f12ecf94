import HtmlConformance.Checking.Element
import HtmlConformance.Proofs.Checking.Attribute

namespace HtmlConformance

/-! The checks of elements at work, and the visit of a pass. A visit reads the options of the pass
and writes the rest of it, so that all it does is told by a repaired element and by findings. -/

open Checking

theorem Checking.Adds.unlessSeen {action : Checking Element Unit} {findings : Findings}
    (adds : Adds action findings) (sweep : Sweep) (name : String) :
    Adds (Checking.when (!sweep.has name) action)
      (ElementCheck.unlessSeen sweep name findings) := by
  have added := adds.when (!sweep.has name)
  cases seen : sweep.has name <;> simpa [ElementCheck.unlessSeen, seen] using added

namespace ElementCheck

variable (check : ElementCheck) (hook : IdRepair) (owner : Owner) (element : Element) (pass : Pass)

/-- What a check finds once it has looked for repeated names. -/
def ownFindings (options : Options) : Findings :=
  let sweep := check.sweep options owner element
  sweep.findings ++
    check.ruleFindings options hook owner sweep (check.swept options owner element)

/-- An action that does what a check asks for once it has looked for repeated names. -/
def IsDoneBy (action : Checking Element Unit) : Prop :=
  ∀ element pass, action.run element pass =
    ((), ⟨check.repair pass.state.options hook owner element,
      pass.absorb (check.ownFindings hook owner element pass.state.options)⟩)

/-! ## All attributes -/

theorem run_checkAll (skip : Option AttributeId)
    (skips : skip.map AttributeRule.nameOf = check.skips) :
    (checkAll owner skip).run element pass =
      (.metIn element.attributes, ⟨check.swept pass.state.options owner element,
        pass.absorb (check.sweep pass.state.options owner element).findings⟩) := by
  rw [checkAll, run_onAttributes, run_checkAttributes, skips]
  rfl

/-- An attribute of the table has been met if the sweep of the check has seen its name. -/
theorem contains_metIn (options : Options) (identity : AttributeId) (name : String)
    (named : AttributeRule.nameOf identity = name) :
    (SeenAttributes.metIn element.attributes).contains identity =
      (check.sweep options owner element).has name := by
  rw [← named]
  exact SeenAttributes.contains_metIn_eq_has options owner check.skips element.attributes identity

@[simp] theorem run_push (attr : Attribute) :
    (push attr).run element pass = ((), ⟨element.push attr, pass⟩) := rfl

/-- An action that does what the own rule of a check asks for, once the attributes of the element
are checked. -/
def IsRuledBy (rule : SeenAttributes → Checking Element Unit) : Prop :=
  ∀ element pass, (rule (.metIn element.attributes)).run
      (check.swept pass.state.options owner element) pass =
    ((), ⟨check.repair pass.state.options hook owner element,
      pass.absorb (check.ruleFindings pass.state.options hook owner
        (check.sweep pass.state.options owner element)
        (check.swept pass.state.options owner element))⟩)

variable {check hook owner} in
theorem IsRuledBy.isDoneBy {rule : SeenAttributes → Checking Element Unit}
    (ruled : check.IsRuledBy hook owner rule) (skip : Option AttributeId)
    (skips : skip.map AttributeRule.nameOf = check.skips) :
    check.IsDoneBy hook owner (checkAll owner skip >>= rule) := by
  intro element pass
  have swept := check.run_checkAll owner element pass skip skips
  have after := ruled element
    (pass.absorb (check.sweep pass.state.options owner element).findings)
  rw [Pass.options_absorb, ← Pass.absorb_append] at after
  rw [run_bind, swept, after, ownFindings]

/-! ## Checks -/

theorem isDoneBy_applyScript : script.IsDoneBy hook owner (applyScript owner) := by
  refine IsRuledBy.isDoneBy ?_ none rfl
  intro element pass
  have typed := script.contains_metIn owner element pass.state.options .type "type" rfl
  cases seen : (script.sweep pass.state.options owner element).has "type" <;>
    cases inferred : isJavaScript (script.swept pass.state.options owner element) <;>
    simp [typed, seen, inferred, repair, inserted, ruleFindings, unlessSeen]

theorem isDoneBy_applyStyle : style.IsDoneBy hook owner (applyStyle owner) := by
  refine IsRuledBy.isDoneBy ?_ none rfl
  intro element pass
  have typed := style.contains_metIn owner element pass.state.options .type "type" rfl
  cases seen : (style.sweep pass.state.options owner element).has "type" <;>
    simp [typed, seen, repair, inserted, ruleFindings, unlessSeen]

theorem isDoneBy_applyLink : link.IsDoneBy hook owner (applyLink owner) := by
  refine IsRuledBy.isDoneBy ?_ none rfl
  intro element pass
  have typed := link.contains_metIn owner element pass.state.options .type "type" rfl
  cases seen : (link.sweep pass.state.options owner element).has "type" <;>
    cases styled : isStyleSheet (link.swept pass.state.options owner element) <;>
    simp [typed, seen, styled, repair, inserted, ruleFindings, unlessSeen]

/-- A border without a value gets one, and a border with a value keeps it. -/
theorem withBorderValue_eq : (fun border : Attribute =>
    if border.value = none then { border with value := some "1" } else border) =
      fun border => { border with value := some (border.value.getD "1") } := by
  funext ⟨name, value, delimiter, fragment⟩
  cases value <;> rfl

theorem isDoneBy_applyTable : table.IsDoneBy hook owner (applyTable owner) := by
  refine IsRuledBy.isDoneBy ?_ none rfl
  intro element pass
  let options := pass.state.options
  have summed := table.contains_metIn owner element options .summary "summary" rfl
  cases early : options.doctype == some .html20 || options.doctype == some .html32 <;>
    cases seen : (table.sweep options owner element).has "summary" <;>
    cases output : options.xmlOutput <;>
    simp only [run_bind, run_options, summed, early, seen, options] <;>
    simp [repair, ruleFindings, unlessSeen, Pass.absorb_append, withBorderValue_eq, early, seen,
      output, options]

theorem isDoneBy_applyCaption : caption.IsDoneBy hook owner (applyCaption owner) := by
  refine IsRuledBy.isDoneBy ?_ (some .align) rfl
  intro element pass
  cases found : (caption.swept pass.state.options owner element).find? "align" with
  | none => simp [found, repair, inserted, ruleFindings, captionFindings]
  | some align =>
      cases valued : align.value with
      | none => simp [found, valued, repair, inserted, ruleFindings, captionFindings]
      | some value =>
          cases sided : Text.isOneOf value ["left", "right"] <;>
            cases level : Text.isOneOf value ["top", "bottom"] <;>
            simp [found, valued, sided, level, repair, inserted, ruleFindings, captionFindings]

theorem isDoneBy_applyLine : line.IsDoneBy hook owner (applyLine owner) := by
  refine IsRuledBy.isDoneBy ?_ none rfl
  intro element pass
  have pictured := line.contains_metIn owner element pass.state.options .src "src" rfl
  cases seen : (line.sweep pass.state.options owner element).has "src" <;>
    cases found : (line.swept pass.state.options owner element).find? "src" <;>
    simp [pictured, seen, found, repair, inserted, ruleFindings]

theorem isDoneBy_applyArea : area.IsDoneBy hook owner (applyArea owner) := by
  refine IsRuledBy.isDoneBy ?_ none rfl
  intro element pass
  let sweep := area.sweep pass.state.options owner element
  have worded := area.contains_metIn owner element pass.state.options .alt "alt" rfl
  have linked := area.contains_metIn owner element pass.state.options .href "href" rfl
  have wordless := ((@adds_flag Element .missingLinkAlt).andThen
    (adds_reportMissing owner "alt")).unlessSeen sweep "alt"
  have unlinked := (adds_reportMissing owner "href").unlessSeen sweep "href"
  simp only [worded, linked]
  exact wordless.andThen unlinked _ _

theorem isDoneBy_applyTableCell : tableCell.IsDoneBy hook owner (applyTableCell owner) := by
  refine IsRuledBy.isDoneBy ?_ none rfl
  intro element pass
  let sweep := tableCell.sweep pass.state.options owner element
  have wide := tableCell.contains_metIn owner element pass.state.options .width "width" rfl
  have high := tableCell.contains_metIn owner element pass.state.options .height "height" rfl
  have sizes := (@adds_narrow Element (.everything \ .only .html40Strict)).when
    (sweep.has "width" || sweep.has "height")
  simp only [wide, high]
  exact sizes _ _

/-- An image without `alt` is given the text to fall back on, if there is one. -/
theorem run_unlessWorded (sweep : Sweep) :
    (Checking.when (!sweep.has "alt") do
        flag (.only .missingImageAlt)
        reportMissing owner "alt"
        pushFallback).run element pass =
      ((), ⟨match image.inserted pass.state.options sweep element with
          | none => element
          | some attr => element.push attr,
        pass.absorb (unlessSeen sweep "alt"
          (.flag .missingImageAlt ++ owner.reportMissing "alt"))⟩) := by
  cases seen : sweep.has "alt" <;> cases fallback : pass.state.options.fallbackAlt <;>
    simp [pushFallback, seen, fallback, inserted, unlessSeen, Pass.absorb_append]

theorem isDoneBy_applyImage : image.IsDoneBy hook owner (applyImage owner) := by
  refine IsRuledBy.isDoneBy ?_ none rfl
  intro element pass
  let options := pass.state.options
  let sweep := image.sweep options owner element
  have met (identity : AttributeId) (name : String)
      (named : AttributeRule.nameOf identity = name) :
      (SeenAttributes.metIn element.attributes).contains identity = sweep.has name :=
    image.contains_metIn owner element options identity name named
  have sizes := (@adds_narrow Element (.everything \ .only .html20)).when
    (sweep.has "width" || sweep.has "height")
  have sources := (@adds_reportMissing Element owner "src").when
    (!sweep.has "src" && !sweep.has "datafld")
  have maps := ((@adds_flag Element .missingImageMap).andThen
    (adds_reportElement owner .missingImagemap)).when
    (sweep.has "ismap" && !sweep.has "usemap")
  have unsourced : (if !sweep.has "src" && !sweep.has "datafld" then
      owner.reportMissing "src" else ∅) =
      unlessSeen sweep "src" (unlessSeen sweep "datafld" (owner.reportMissing "src")) := by
    cases src : sweep.has "src" <;> cases datafld : sweep.has "datafld" <;>
      simp [unlessSeen, src, datafld]
  -- Only the second action changes the element, and the findings come in the order of the actions.
  simp only [run_bind, met .width "width" rfl, met .height "height" rfl, met .alt "alt" rfl,
    met .src "src" rfl, met .datafld "datafld" rfl, met .ismap "ismap" rfl,
    met .usemap "usemap" rfl, sizes _ _, run_unlessWorded, sources _ _, maps _ _, unsourced,
    Pass.options_absorb, ← Pass.absorb_append]
  rfl

/-! ## Namespaces -/

/-- The mark for a namespace may be set where the namespace is met or once at the end. -/
theorem gathered_namespaced (found : Attribute → Findings) (test : Attribute → Bool)
    (attributes : List Attribute) :
    Findings.gathered
        (fun attr _ => found attr ++ if test attr then .namespaced else ∅) attributes =
      .joinAll (attributes.map found) ++ if attributes.any test then .namespaced else ∅ := by
  induction attributes with
  | nil => simp [Findings.gathered]
  | cons attr later induction =>
      rw [Findings.gathered, induction, List.map_cons, Findings.joinAll_cons, List.any_cons]
      cases test attr <;> cases later.any test <;> apply Findings.ext <;>
        simp [Findings.namespaced, FlagSet.inter_assoc]

theorem stepsThrough_applyHtml (options : Options) :
    StepsThrough (fun (_ : Unit) index => do
        let answer ← atIndex index (checkAttribute owner)
        Checking.when (answer.join.any fun rule => rule.identity == .xmlns) markXhtml) options
      (fun _ _ => ()) (fun attr => attr.repair options)
      (fun attr _ => attr.findings options owner ++
        if attr.resolvesTo .xmlns then .namespaced else ∅) := by
  intro _ done attr later pass same
  subst same
  have marks := (@adds_markXhtml (List Attribute)).when (attr.resolvesTo .xmlns)
  simp only [run_bind, run_atIndex, run_checkAttribute, Pass.absorb_append]
  exact marks _ _

theorem isDoneBy_applyHtml : html.IsDoneBy hook owner (onAttributes (applyHtml owner)) := by
  intro element pass
  have marked := html.contains_metIn owner element pass.state.options .xmlns "xmlns" rfl
  have steps := stepsThrough_applyHtml owner pass.state.options
  rw [SeenAttributes.contains_metIn] at marked
  rw [run_onAttributes, applyHtml, steps.run_throughIndices () element.attributes pass rfl,
    gathered_namespaced, marked]
  simp [repair, inserted, swept, sweep, skips, Sweep.run, ownFindings, ruleFindings]

/-! ## All checks -/

theorem isDoneBy_checkAll : generic.IsDoneBy hook owner (do let _ ← checkAll owner) := by
  intro element pass
  simp [generic.run_checkAll owner element pass none rfl, repair, inserted, ownFindings,
    ruleFindings]

/-- Anchors and image maps are left to the rule for ids. -/
theorem isDoneBy_repairId (marked : check = anchor ∨ check = map) :
    check.IsDoneBy hook owner (do let _ ← checkAll owner; hook.apply owner) := by
  rcases marked with rfl | rfl
  · exact IsRuledBy.isDoneBy (fun _ pass => hook.run_apply owner _ pass) none rfl
  · exact IsRuledBy.isDoneBy (fun _ pass => hook.run_apply owner _ pass) none rfl

theorem isDoneBy_action : check.IsDoneBy hook owner (check.action hook owner) := by
  cases check with
  | html => exact isDoneBy_applyHtml hook owner
  | script => exact isDoneBy_applyScript hook owner
  | table => exact isDoneBy_applyTable hook owner
  | caption => exact isDoneBy_applyCaption hook owner
  | line => exact isDoneBy_applyLine hook owner
  | image => exact isDoneBy_applyImage hook owner
  | area => exact isDoneBy_applyArea hook owner
  | anchor => exact isDoneBy_repairId anchor hook owner (.inl rfl)
  | map => exact isDoneBy_repairId map hook owner (.inr rfl)
  | style => exact isDoneBy_applyStyle hook owner
  | tableCell => exact isDoneBy_applyTableCell hook owner
  | link => exact isDoneBy_applyLink hook owner
  | generic => exact isDoneBy_checkAll hook owner

theorem run_apply :
    (check.apply hook owner).run element pass =
      ((), ⟨check.repair pass.state.options hook owner element,
        pass.absorb (check.findings pass.state.options hook owner element)⟩) := by
  rw [apply, run_bind, run_onAttributes, run_checkAllUnique,
    check.isDoneBy_action hook owner element (pass.absorb _)]
  simp [findings, ownFindings, Pass.absorb_append]

end ElementCheck

theorem Checking.run_checkElement (hook : IdRepair) (element : Element) (pass : Pass) :
    (checkElement hook).run element pass =
      ((), ⟨element.repair pass.state.options hook,
        pass.absorb (element.findings pass.state.options hook)⟩) := by
  rw [checkElement, run_bind, run_subject, Element.repair, Element.findings, Element.check,
    Owner.ofTag]
  cases found : ElementRule.find? element.tag with
  | some rule =>
      simp only [ElementCheck.run_apply, Option.map_some, Option.getD_some, Option.isNone_some,
        Bool.false_eq_true, if_false, Findings.empty_append]
  | none =>
      simp only [run_bind, run_warn, ElementCheck.run_apply, Option.map_none, Option.getD_none,
        Option.isNone_none, if_true, Pass.absorb_append, Pass.options_absorb]

/-- A visit reads the options of the pass and nothing else of it: what it makes of the element, and
what it adds to the pass, is what the check of the element comes to. -/
theorem Pass.visit_eq (hook : IdRepair) (pass : Pass) (element : Element) :
    pass.visit hook element =
      (element.repair pass.state.options hook,
        pass.absorb (element.findings pass.state.options hook)) := by
  rw [visit, run_checkElement]

@[simp] theorem Pass.options_visit (hook : IdRepair) (pass : Pass) (element : Element) :
    (pass.visit hook element).2.state.options = pass.state.options := by
  rw [visit_eq, options_absorb]

end HtmlConformance
