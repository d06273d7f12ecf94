import HtmlConformance.Proofs.Rule.Element
import HtmlConformance.Proofs.Validation
import HtmlConformance.Report

namespace HtmlConformance

/-! Which versions a document can still claim after a pass: those that no element of it rules
out. What an element rules out is said here without the checks. -/

/-! ## What rules a version out -/

def vendorPlaces : List String := ["texttop", "absmiddle", "absbottom", "textbottom"]

namespace Element

variable (element : Element) (version : Version)

/-- Whether the version lacks an attribute of the element. Attributes of XML do not count,
nor does the place of a caption; `title` on a link has been legal from the start. -/
def isForeign (attr : Attribute) : Bool :=
  attr.rule?.any fun rule =>
    !rule.versions.contains .xml && !(rule.name == "align" && element.isTagged "caption") &&
      !(if rule.name == "title" && (element.isTagged "a" || element.isTagged "link") then
        VersionSet.standard
      else
        rule.versions).contains version

/-- Whether an attribute places a box in the way of vendors, who alone have that value. -/
def isVendorPlace (attr : Attribute) : Bool :=
  (attr.isNamed "valign" ||
      attr.isNamed "align" && (Owner.ofTag element.tag).isImageLike) &&
    attr.value.any (fun value => Text.isOneOf value vendorPlaces) &&
    !VersionSet.proprietary.contains version

/-- Whether the version lacks the place of a caption, which its first `align` decides. -/
def isForeignCaption : Bool :=
  element.isTagged "caption" &&
    (element.find? "align").any fun align => align.value.any fun value =>
      Text.isOneOf value ["left", "right"] && !VersionSet.iframe.contains version ||
        Text.isOneOf value ["top", "bottom"] && !VersionSet.from32.contains version

def isSized : Bool := element.has "width" || element.has "height"

/-- Whether an anchor or an image map with a name and without an id is to be XHTML; the id
that it gets is not part of the version. -/
def isNamedForXhtml (options : Options) : Bool :=
  (element.isTagged "a" || element.isTagged "map") && options.xmlOutput &&
    (element.find? "name").any (fun name => name.value.isSome) && !element.has "id" &&
    !VersionSet.from40.contains version

def excludes (options : Options) : Bool :=
  element.attributes.any (element.isForeign version) ||
    element.attributes.any (element.isVendorPlace version) ||
    element.isForeignCaption version ||
    (element.isTagged "td" || element.isTagged "th") && element.isSized &&
      version == .html40Strict ||
    element.isTagged "img" && element.isSized && version == .html20 ||
    element.isNamedForXhtml version options

end Element

/-! ## Values of vendors -/

theorem Text.isOneOf_eq_false_of_disjoint {first second : List String}
    (disjoint : (first.all fun left => second.all fun right => !alike left right) = true)
    {value : String} (listed : isOneOf value first = true) : isOneOf value second = false := by
  rcases List.any_eq_true.mp listed with ⟨left, member, alikeLeft⟩
  apply List.any_eq_false.mpr
  intro right memberRight alikeRight
  have apart := List.all_eq_true.mp (List.all_eq_true.mp disjoint left member) right memberRight
  rw [alike_trans (alike_comm value left ▸ alikeLeft) alikeRight] at apart
  cases apart

theorem ValueGrammar.judgePlace_eq_proprietary (imageLike : Bool) (value : String) :
    judgePlace imageLike value = .proprietary ↔ Text.isOneOf value vendorPlaces = true := by
  have usual : Text.isOneOf value ["top", "middle", "bottom", "baseline"] = true →
      Text.isOneOf value vendorPlaces = false :=
    Text.isOneOf_eq_false_of_disjoint (by cbv)
  have sides : Text.isOneOf value ["left", "right"] = true →
      Text.isOneOf value vendorPlaces = false :=
    Text.isOneOf_eq_false_of_disjoint (by cbv)
  unfold judgePlace
  split
  next listed => simp [usual listed]
  next =>
    split
    next listed => cases imageLike <;> simp [sides listed]
    next =>
      rw [← vendorPlaces]
      split
      next listed => simp [listed]
      next unlisted => simp [unlisted]

/-- Only vertical places, and places of images, can be of vendors. -/
theorem ValueRule.judge_eq_proprietary (rule : ValueRule) (imageLike : Bool)
    (value : Option String) :
    rule.judge imageLike value = .proprietary ↔
      (rule = .valign ∨ rule = .align ∧ imageLike = true) ∧
        (value.any fun value => Text.isOneOf value vendorPlaces) = true := by
  cases value with
  | none => cases rule <;> simp [judge, needsValue]
  | some value =>
      cases rule with
      | valign => simp [judge, judgeValue, ValueGrammar.judgePlace_eq_proprietary]
      | align =>
          cases imageLike with
          | true => simp [judge, judgeValue, ValueGrammar.judgePlace_eq_proprietary]
          | false =>
              simp only [judge, judgeValue, Bool.false_eq_true, if_false]
              split <;> simp
      | url | script | bool | id | name => simp [judge, judgeValue]
      | _ =>
          simp only [judge, judgeValue]
          split <;> simp

namespace Attribute

theorem valueRule?_eq_valign (attr : Attribute) :
    attr.valueRule? = some .valign ↔ attr.isNamed "valign" = true :=
  valueRule?_eq_iff (by cbv) (by cbv) attr

theorem valueRule?_eq_align (attr : Attribute) :
    attr.valueRule? = some .align ↔ attr.isNamed "align" = true :=
  valueRule?_eq_iff (by cbv) (by cbv) attr

end Attribute

/-! ## Single attributes -/

section

variable (options : Options) (element : Element) (version : Version) {attr : Attribute}

theorem AttributeRule.contains_versionFindings {rule : AttributeRule}
    (found : attr.rule? = some rule) :
    (rule.versionFindings options (.ofTag element.tag) attr).allowed.contains version =
      (rule.versions.contains .xml ||
        (if rule.name == "title" && (element.isTagged "a" || element.isTagged "link") then
          VersionSet.standard
        else
          rule.versions).contains version) := by
  have titleRow : (rule.identity == .title) = (rule.name == "title") := by
    rw [Bool.eq_iff_iff, beq_iff_eq, beq_iff_eq, identity_eq_iff (mem_of_find? found)]
    rfl
  have onAnchor : (Owner.ofTag element.tag).is .a = element.isTagged "a" :=
    Owner.is_ofTag .a element.tag
  have onLink : (Owner.ofTag element.tag).is .link = element.isTagged "link" :=
    Owner.is_ofTag .link element.tag
  rw [versionFindings, onAnchor, onLink, FlagSet.intersects_only, ← titleRow]
  change (if rule.identity == .title && (element.isTagged "a" || element.isTagged "link") then _
    else _ : Findings).allowed.contains version = _
  split
  next titled =>
    have legal : rule.versions.contains .xml = false :=
      contains_xml_of_title (mem_of_find? found) (Bool.and_eq_true_iff.mp titled).1
    rw [legal, Bool.false_or]
    rfl
  next =>
    cases rule.versions.contains .xml with
    | false => rfl
    | true =>
        rw [if_pos rfl, Bool.true_or]
        split <;> exact FlagSet.contains_full version

theorem Attribute.judge_eq_proprietary {rule : ValueRule} (found : attr.valueRule? = some rule)
    (imageLike : Bool) :
    rule.judge imageLike attr.value = .proprietary ↔
      ((attr.isNamed "valign" || attr.isNamed "align" && imageLike) &&
        attr.value.any (fun value => Text.isOneOf value vendorPlaces)) = true := by
  have vertical : rule = .valign ↔ attr.isNamed "valign" = true := by
    rw [← attr.valueRule?_eq_valign, found, Option.some.injEq]
  have horizontal : rule = .align ↔ attr.isNamed "align" = true := by
    rw [← attr.valueRule?_eq_align, found, Option.some.injEq]
  rw [rule.judge_eq_proprietary, vertical, horizontal, Bool.and_eq_true, Bool.or_eq_true,
    Bool.and_eq_true]

theorem ValueRule.contains_findings {rule : ValueRule} (found : attr.valueRule? = some rule) :
    (rule.findings (.ofTag element.tag) attr).allowed.contains version =
      !element.isVendorPlace version attr := by
  have judged := Attribute.judge_eq_proprietary found (Owner.ofTag element.tag).isImageLike
  rw [Element.isVendorPlace]
  unfold findings
  cases verdict : rule.judge (Owner.ofTag element.tag).isImageLike attr.value with
  | proprietary =>
      rw [judged.mp verdict]
      simp [Findings.narrow, Owner.report, Findings.raise]
  | _ =>
      rw [verdict] at judged
      have usual := eq_false_of_ne_true fun vendor => absurd (judged.mpr vendor) (by simp)
      rw [usual]
      exact FlagSet.contains_full version

theorem Element.isVendorPlace_eq_false (missing : attr.valueRule? = none) :
    element.isVendorPlace version attr = false := by
  have vertical : attr.isNamed "valign" = false := by
    rw [← Bool.not_eq_true, ← attr.valueRule?_eq_valign, missing]
    simp
  have horizontal : attr.isNamed "align" = false := by
    rw [← Bool.not_eq_true, ← attr.valueRule?_eq_align, missing]
    simp
  rw [isVendorPlace, vertical, horizontal]
  rfl

theorem Attribute.contains_findings :
    (attr.findings options (.ofTag element.tag)).allowed.contains version =
      ((attr.rule?.all fun rule => rule.versions.contains .xml ||
        (if rule.name == "title" && (element.isTagged "a" || element.isTagged "link") then
          VersionSet.standard
        else
          rule.versions).contains version) &&
        !element.isVendorPlace version attr) := by
  unfold findings
  cases found : attr.rule? with
  | none =>
      have unplaced : attr.valueRule? = none := by rw [valueRule?, found, Option.bind_none]
      rw [element.isVendorPlace_eq_false version unplaced]
      simp only
      split <;> exact FlagSet.contains_full version
  | some rule =>
      simp only [AttributeRule.findings, Findings.allowed_append, FlagSet.contains_inter,
        AttributeRule.contains_versionFindings options element version found, Option.all_some]
      congr 1
      cases valued : rule.value with
      | none =>
          have unplaced : attr.valueRule? = none := by
            rw [valueRule?, found, Option.bind_some, valued]
          rw [element.isVendorPlace_eq_false version unplaced]
          exact FlagSet.contains_full version
      | some valueRule =>
          apply ValueRule.contains_findings
          rw [valueRule?, found, Option.bind_some, valued]

theorem Element.any_skips :
    (element.check.skips.any fun name => Sweep.resolvesTo attr name) =
      (element.isTagged "caption" && attr.isNamed "align") := by
  rw [← element.check_beq_caption]
  cases element.check with
  | caption =>
      exact Sweep.resolvesTo_eq_isNamed (isKnown_of_consulted (by simp [consultedNames])) attr
  | _ => rfl

theorem Element.contains_judged :
    (if element.check.skips.any fun name => Sweep.resolvesTo attr name then (∅ : Findings)
      else attr.findings options (.ofTag element.tag)).allowed.contains version =
      (!element.isForeign version attr && !element.isVendorPlace version attr) := by
  have known : AttributeRule.IsKnown "align" :=
    isKnown_of_consulted (by simp [consultedNames])
  rw [any_skips]
  cases skipped : element.isTagged "caption" && attr.isNamed "align" with
  | true =>
      rcases Bool.and_eq_true_iff.mp skipped with ⟨tagged, named⟩
      have flat : attr.isNamed "valign" = false := by
        rw [← Bool.not_eq_true, ← attr.valueRule?_eq_valign, attr.valueRule?_eq_align.mpr named]
        simp
      have foreign : element.isForeign version attr = false := by
        rcases (Attribute.isNamed_iff known attr).mp named with ⟨rule, found, same⟩
        simp [isForeign, found, same, tagged]
      rw [if_pos rfl, foreign, isVendorPlace, flat, Owner.isImageLike_of_caption tagged,
        Bool.and_false]
      exact FlagSet.contains_full version
  | false =>
      rw [if_neg Bool.false_ne_true, Attribute.contains_findings]
      congr 1
      rw [isForeign]
      cases found : attr.rule? with
      | none => rfl
      | some rule =>
          have unplaced : (rule.name == "align" && element.isTagged "caption") = false := by
            rw [← skipped, Bool.and_comm]
            congr 1
            rw [← Sweep.resolvesTo_eq_isNamed known, Sweep.resolvesTo, found, Option.any_some]
          rw [Option.all_some, Option.any_some, unplaced, Bool.not_false, Bool.and_true,
            Bool.not_and, Bool.not_not, Bool.not_not]

end

/-! ## Attribute lists -/

theorem Repeats.allowed_findings (owner : Owner) (attributes : List Attribute) :
    (findings owner attributes).allowed = .everything :=
  (within_findings owner attributes).allowed_eq_everything rfl

section

variable (options : Options) (element : Element) (version : Version)

theorem Element.contains_sweep :
    (element.check.sweep options (.ofTag element.tag) element).findings.allowed.contains
        version =
      (!element.attributes.any (element.isForeign version) &&
        !element.attributes.any (element.isVendorPlace version)) := by
  simp only [ElementCheck.sweep, Sweep.run, Findings.contains_allowed_joinAll, List.all_map]
  induction element.attributes with
  | nil => rfl
  | cons attr rest induction =>
      rw [List.all_cons, induction, List.any_cons, List.any_cons]
      have here := @Element.contains_judged options element version attr
      simp only [Function.comp_apply, here]
      cases element.isForeign version attr <;> cases element.isVendorPlace version attr <;>
        simp

end

/-! ## Elements as a whole -/

namespace ElementCheck

section

variable (options : Options) (owner : Owner) (element : Element) (version : Version)

@[simp] theorem contains_unlessSeen (sweep : Sweep) (name : String) (findings : Findings) :
    (unlessSeen sweep name findings).allowed.contains version =
      (sweep.has name || findings.allowed.contains version) := by
  unfold unlessSeen
  split
  next seen => rw [seen, Bool.true_or]; exact FlagSet.contains_full version
  next unseen => rw [eq_false_of_ne_true unseen, Bool.false_or]

@[simp] theorem contains_reportMissing (name : String) :
    (owner.reportMissing name).allowed.contains version = true :=
  FlagSet.contains_full version

theorem contains_captionFindings (check : ElementCheck)
    (tagged : element.isTagged "caption" = true) :
    (captionFindings owner (check.swept options owner element)).allowed.contains version =
      !element.isForeignCaption version := by
  have sides {value : String} : Text.isOneOf value ["left", "right"] = true →
      Text.isOneOf value ["top", "bottom"] = false :=
    Text.isOneOf_eq_false_of_disjoint (by cbv)
  rw [captionFindings, find?_swept, Element.isForeignCaption, tagged, Bool.true_and]
  cases found : element.find? "align" with
  | none => exact FlagSet.contains_full version
  | some align =>
      have same := Attribute.repair_align options (Element.isNamed_of_find? found)
      simp only [Option.map_some, same, Option.any_some]
      cases align.value with
      | none => exact FlagSet.contains_full version
      | some value =>
          simp only [Option.any_some]
          split
          next beside => simp [beside, sides beside]
          next notBeside =>
            split
            next upright => simp [notBeside, upright]
            next notUpright => simp [notBeside, notUpright, Owner.report]

theorem contains_copyName (check : ElementCheck)
    (tagged : (element.isTagged "a" || element.isTagged "map") = true) :
    (IdRepair.copyName.findings options owner
        (check.swept options owner element)).allowed.contains version =
      !element.isNamedForXhtml version options := by
  have idVersions : (AttributeRule.get .id).versions = VersionSet.from40 := rfl
  rw [Element.isNamedForXhtml, tagged, Bool.true_and, Element.has_eq_isSome]
  simp only [IdRepair.copyName, IdRepair.nameValue?, find?_swept]
  cases named : element.find? "name" with
  | none => simp
  | some name =>
      have same := Attribute.repair_name options (Element.isNamed_of_find? named)
      simp only [Option.map_some, same, Option.bind_some, Option.any_some]
      cases name.value with
      | none => simp
      | some value =>
          cases element.find? "id" with
          | none =>
              cases options.xmlOutput with
              | true => simp [idVersions]
              | false => simp
          | some id =>
              simp only [Option.map_some]
              split <;> simp [Owner.report]

theorem contains_ruleFindings :
    (element.check.ruleFindings options .copyName owner
        (element.check.sweep options owner element)
        (element.check.swept options owner element)).allowed.contains version =
      match element.check with
      | caption => !element.isForeignCaption version
      | tableCell => !(element.isSized && version == .html40Strict)
      | image => !(element.isSized && version == .html20)
      | anchor | map => !element.isNamedForXhtml version options
      | _ => true := by
  have width := has_sweep element.check options owner element
    (isKnown_of_consulted (by simp [consultedNames]) : AttributeRule.IsKnown "width")
  have height := has_sweep element.check options owner element
    (isKnown_of_consulted (by simp [consultedNames]) : AttributeRule.IsKnown "height")
  have sized : (element.has "width" || element.has "height") = element.isSized := rfl
  have tagCaption := element.check_beq_caption
  have tagAnchor := element.check_beq_anchor
  have tagMap := element.check_beq_map
  generalize element.check = check at *
  cases check with
  | caption => exact contains_captionFindings options owner element version _ tagCaption.symm
  | image =>
      simp only [ruleFindings, imageFindings, width, height, sized]
      cases element.isSized <;> simp [Findings.allowed_ite]
  | tableCell =>
      simp only [ruleFindings, width, height, sized]
      cases element.isSized <;> simp
  | anchor =>
      apply contains_copyName
      rw [← tagAnchor]
      rfl
  | map =>
      apply contains_copyName
      rw [← tagMap, Bool.or_comm]
      rfl
  | line =>
      simp only [ruleFindings]
      split
      · split <;> exact FlagSet.contains_full version
      · exact FlagSet.contains_full version
  | _ =>
      simp [ruleFindings, Findings.allowed_ite, apply_ite (FlagSet.contains · version)]

/-- Besides its attributes, an element rules out the versions that its check rules out. -/
theorem excludes_eq :
    element.excludes version options =
      (element.attributes.any (element.isForeign version) ||
        element.attributes.any (element.isVendorPlace version) ||
        !match element.check with
        | caption => !element.isForeignCaption version
        | tableCell => !(element.isSized && version == .html40Strict)
        | image => !(element.isSized && version == .html20)
        | anchor | map => !element.isNamedForXhtml version options
        | _ => true) := by
  have placed : element.check ≠ .caption → element.isForeignCaption version = false := by
    intro other
    simp [Element.isForeignCaption, ← element.check_beq_caption, other]
  have named : element.check ≠ .anchor → element.check ≠ .map →
      element.isNamedForXhtml version options = false := by
    intro notAnchor notMap
    simp [Element.isNamedForXhtml, ← element.check_beq_anchor, ← element.check_beq_map,
      notAnchor, notMap]
  rw [Element.excludes, ← element.check_beq_image, ← element.check_beq_tableCell]
  generalize element.check = check at *
  cases check <;> simp_all [Bool.beq_eq_decide_eq]

end

end ElementCheck

/-! ## Documents -/

theorem Element.contains_allowed_findings (options : Options) (element : Element)
    (version : Version) :
    (element.findings options .copyName).allowed.contains version =
      !element.excludes version options := by
  have warned : (if (Owner.ofTag element.tag).rule.isNone then
      Findings.warn (unknownTagWarning element.tag) else ∅).allowed = .everything := by
    split <;> rfl
  rw [findings, Findings.allowed_append, warned, VersionSet.everything_inter,
    ElementCheck.findings]
  simp only [Findings.allowed_append, Repeats.allowed_findings, VersionSet.everything_inter,
    FlagSet.contains_inter, element.contains_sweep, ElementCheck.contains_ruleFindings,
    ElementCheck.excludes_eq, Bool.not_or, Bool.not_not]

namespace Arena

/-- After a pass a document can claim exactly the versions that none of its elements rules
out, and they are listed in the order of all versions. -/
theorem permits_iff_no_element_excludes (options : Options) (nodes : List Node) :
    (∀ version, (firstPass options .copyName nodes).2.state.versions.permits version = true ↔
      ∀ element ∈ Node.elementsAll nodes, element.excludes version options = false) ∧
      (Report.ofState (firstPass options .copyName nodes).2.state).claimable =
        Version.all.filter fun version =>
          (Node.elementsAll nodes).all fun element => !element.excludes version options := by
  have judged (version : Version) :
      (firstPass options .copyName nodes).2.state.versions.contains version =
        (Node.elementsAll nodes).all fun element => !element.excludes version options := by
    rw [versions_firstPass, Node.findingsAll, Findings.contains_allowed_joinAll, List.all_map]
    congr 1
    funext element
    exact element.contains_allowed_findings options version
  constructor
  · intro version
    rw [VersionSet.permits, judged]
    simp
  · rw [Report.claimable, FlagSet.toList]
    exact congrArg (Version.all.filter ·) (funext judged)

end Arena

end HtmlConformance
