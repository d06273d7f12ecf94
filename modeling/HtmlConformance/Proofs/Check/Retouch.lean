import HtmlConformance.Proofs.Check.Comparison

namespace HtmlConformance

/-! Retouched elements: attributes and the tag are written in another way, of which the checks
take no notice. A retouched element is repaired like the original, and through a view that does
not show the difference the same is found on it. -/

/-- A way of rewriting attributes, between two owners, that a view does not show. Names stay
alike, values stay, and supplied attributes are already as they are to be. What marks template
code may be touched only if the view hides what depends on it. -/
structure Retouch (view : View) (touch : Attribute → Attribute) (owner retouched : Owner) :
    Prop where
  name : ∀ attr, Text.alike (touch attr).name attr.name = true
  value : ∀ attr, (touch attr).value = attr.value
  update : ∀ attr value, touch { attr with value } = { touch attr with value }
  supplied : ∀ (supplied : Supplied) (text : String),
    touch (.valued supplied.name text) = .valued supplied.name text
  rule : retouched.rule = owner.rule
  onAttribute : ∀ kind attr, view (.onAttribute kind retouched.tag (touch attr)) =
    view (.onAttribute kind owner.tag attr)
  onName : ∀ kind name, view (.onName kind retouched.tag name) =
    view (.onName kind owner.tag name)
  onElement : ∀ kind, view (.onElement kind retouched.tag) = view (.onElement kind owner.tag)
  templates : (∀ attr, (touch attr).isTemplated = attr.isTemplated) ∨
    view.Hides .repeatedAttribute ∧ view.Hides .unknownAttribute

def Element.retouched (element : Element) (tag : String) (touch : Attribute → Attribute) :
    Element where
  tag := tag
  attributes := element.attributes.map touch

theorem Repeats.findings_through_of_hides {view : View} (hides : view.Hides .repeatedAttribute)
    (owner : Owner) (attributes : List Attribute) :
    (findings owner attributes).through view = ∅ := by
  induction attributes with
  | nil => rfl
  | cons attr later induction =>
      rw [findings, Findings.through_append, induction, Findings.append_empty]
      split
      · rfl
      · rw [headFindings]
        split
        · rfl
        · exact Findings.through_raise_of_none (hides _ rfl)

namespace Retouch

variable {view : View} {touch : Attribute → Attribute} {owner retouched : Owner}
    (retouch : Retouch view touch owner retouched)
include retouch

/-! ## Names -/

theorem isNamed (attr : Attribute) (name : String) :
    (touch attr).isNamed name = attr.isNamed name := by
  have same := (Text.alike_iff _ _).mp (retouch.name attr)
  simp only [Attribute.isNamed, Text.alike, same]

theorem isNamed_name (attr other : Attribute) :
    (touch attr).isNamed (touch other).name = attr.isNamed other.name := by
  have same := (Text.alike_iff _ _).mp (retouch.name other)
  rw [retouch.isNamed, Attribute.isNamed, Attribute.isNamed, Text.alike, Text.alike, same]

theorem rule? (attr : Attribute) : (touch attr).rule? = attr.rule? :=
  AttributeRule.find?_congr (retouch.name attr)

theorem valueRule? (attr : Attribute) : (touch attr).valueRule? = attr.valueRule? := by
  rw [Attribute.valueRule?, retouch.rule?, Attribute.valueRule?]

theorem resolvesTo (attr : Attribute) : Sweep.resolvesTo (touch attr) = Sweep.resolvesTo attr := by
  funext name
  rw [Sweep.resolvesTo, retouch.rule?, Sweep.resolvesTo]

theorem has (element : Element) (tag name : String) :
    (element.retouched tag touch).has name = element.has name := by
  simp only [Element.has, Element.retouched, List.any_map, Function.comp_def, retouch.isNamed]

theorem find? (element : Element) (tag name : String) :
    (element.retouched tag touch).find? name = (element.find? name).map touch := by
  simp only [Element.find?, Element.retouched, List.find?_map, Function.comp_def, retouch.isNamed]

/-! ## Single attributes -/

theorem repair (attr : Attribute) (options : Options) :
    (touch attr).repair options = touch (attr.repair options) := by
  unfold Attribute.repair
  rw [retouch.valueRule?]
  cases attr.valueRule? with
  | none => rfl
  | some rule =>
      simp only [ValueRule.repair, retouch.value]
      exact (retouch.update attr _).symm

theorem report (kind : DiagnosticKind) (attr : Attribute) :
    (retouched.report kind (touch attr)).through view = (owner.report kind attr).through view :=
  Findings.through_raise_congr (retouch.onAttribute kind attr)

theorem missing (name : String) :
    (retouched.reportMissing name).through view = (owner.reportMissing name).through view :=
  Findings.through_raise_congr (retouch.onName .missingAttribute name)

theorem valueFindings (rule : ValueRule) (attr : Attribute) :
    (rule.findings retouched (touch attr)).through view =
      (rule.findings owner attr).through view := by
  have imageLike : retouched.isImageLike = owner.isImageLike := by
    rw [Owner.isImageLike, Owner.hasModel, retouch.rule, Owner.isImageLike, Owner.hasModel]
  unfold ValueRule.findings
  rw [imageLike, retouch.value]
  cases rule.judge owner.isImageLike attr.value with
  | accepted => rfl
  | missing | bad => exact retouch.report _ attr
  | proprietary => simp only [Findings.through_append, retouch.report, Findings.through_narrow]

theorem ruleFindings (rule : AttributeRule) (options : Options) (attr : Attribute) :
    (rule.findings options retouched (touch attr)).through view =
      (rule.findings options owner attr).through view := by
  have is : retouched.is = owner.is := by
    funext name
    rw [Owner.is, retouch.rule, Owner.is]
  have versions : (rule.versionFindings options retouched (touch attr)).through view =
      (rule.versionFindings options owner attr).through view := by
    simp only [AttributeRule.versionFindings, is, Findings.through_ite, retouch.report]
  rw [AttributeRule.findings, AttributeRule.findings, Findings.through_append,
    Findings.through_append, versions]
  cases rule.value with
  | none => rfl
  | some valueRule => rw [retouch.valueFindings valueRule attr]

theorem findings (options : Options) (attr : Attribute) :
    ((touch attr).findings options retouched).through view =
      (attr.findings options owner).through view := by
  unfold Attribute.findings
  rw [retouch.rule?]
  cases attr.rule? with
  | some rule => exact retouch.ruleFindings rule options attr
  | none =>
      simp only [Findings.through_ite, retouch.report]
      rcases retouch.templates with kept | ⟨_, hides⟩
      · have excused : (touch attr).isExcused options retouched = attr.isExcused options owner := by
          simp only [Attribute.isExcused, Owner.hasModel, kept, retouch.rule]
        rw [excused]
      · have hidden : (owner.report .unknownAttribute attr).through view = ∅ :=
          Findings.through_raise_of_none (hides _ rfl)
        simp only [hidden, Findings.through_empty, ite_self]

/-! ## Attribute lists -/

theorem repeats (attributes : List Attribute) :
    (Repeats.findings retouched (attributes.map touch)).through view =
      (Repeats.findings owner attributes).through view := by
  rcases retouch.templates with kept | ⟨hides, _⟩
  · induction attributes with
    | nil => rfl
    | cons attr later induction =>
        have first : Repeats.first? (touch attr).name (later.map touch) =
            (Repeats.first? attr.name later).map touch := by
          simp only [Repeats.first?, List.find?_map, Function.comp_def, kept,
            retouch.isNamed_name]
        simp only [List.map_cons, Repeats.findings, Repeats.headFindings, first, kept,
          Findings.through_append, Findings.through_ite, induction]
        cases Repeats.first? attr.name later with
        | none => rfl
        | some repeated => simp only [Option.map_some, retouch.report]
  · rw [Repeats.findings_through_of_hides hides, Repeats.findings_through_of_hides hides]

theorem sweep (options : Options) (skip : Option String) (attributes : List Attribute) :
    (Sweep.run options retouched skip (attributes.map touch)).findings.through view =
      (Sweep.run options owner skip attributes).findings.through view := by
  simp only [Sweep.run, List.map_map]
  apply Findings.through_joinAll_map
  apply List.forall₂_same.mpr
  intro attr _
  simp only [Function.comp_apply, retouch.resolvesTo, Findings.through_ite, retouch.findings]

/-! ## Elements -/

variable (check : ElementCheck) (options : Options) (hook : IdRepair.BuiltIn)
    (element : Element) (tag : String)

theorem swept :
    check.swept options retouched (element.retouched tag touch) =
      (check.swept options owner element).retouched tag touch := by
  have attributes : (check.swept options retouched (element.retouched tag touch)).attributes =
      ((check.swept options owner element).retouched tag touch).attributes := by
    simp only [Element.retouched, ElementCheck.attributes_swept, List.map_map,
      Function.comp_def, retouch.repair]
  exact congrArg (Element.mk tag) attributes

theorem rewrite :
    check.rewrite options retouched (element.retouched tag touch) =
      (check.rewrite options owner element).retouched tag touch := by
  have modified : ((check.swept options owner element).retouched tag touch).modify "border"
      ElementCheck.widen =
        ((check.swept options owner element).modify "border" ElementCheck.widen).retouched tag
          touch := by
    apply congrArg (Element.mk tag)
    apply updateFirst_map
    · exact fun attr => retouch.isNamed attr "border"
    · intro border
      simp only [ElementCheck.widen, retouch.value]
      exact (retouch.update border _).symm
  cases check with
  | table =>
      simp only [ElementCheck.rewrite, retouch.swept]
      split
      · exact modified
      · rfl
  | _ => exact retouch.swept _ options element tag

theorem readAlike :
    (element.retouched tag touch).ReadAlike view retouched owner element where
  has name _ := retouch.has element tag name
  find? name _ := by
    rw [retouch.find?]
    cases element.find? name with
    | none => exact .none
    | some attr => exact .some ⟨retouch.value attr, fun kind => retouch.report kind attr⟩
  missing := retouch.missing
  unmapped := Findings.through_raise_congr (retouch.onElement _)

theorem repairElement :
    check.repair options hook.rule retouched (element.retouched tag touch) =
      (check.repair options hook.rule owner element).retouched tag touch := by
  have appends : check.appended options hook retouched
      ((check.rewrite options owner element).retouched tag touch) =
        check.appended options hook owner (check.rewrite options owner element) :=
    check.appended_eq hook rfl (fun _ => rfl) (retouch.readAlike _ tag)
  rw [ElementCheck.repair_eq, ElementCheck.repair_eq, retouch.rewrite, appends]
  cases found : check.appended options hook owner (check.rewrite options owner element) with
  | none => rfl
  | some attr =>
      rcases ElementCheck.supplied_of_appended check options hook owner _ found with
        ⟨supplied, text, _, rfl, _⟩
      simp [Element.retouched, Element.push, retouch.supplied]

theorem checkFindings :
    (check.findings options hook.rule retouched (element.retouched tag touch)).through view =
      (check.findings options hook.rule owner element).through view := by
  have rule : (check.ruleFindings options hook.rule retouched
        (check.sweep options retouched (element.retouched tag touch))
        (check.swept options retouched (element.retouched tag touch))).through view =
      (check.ruleFindings options hook.rule owner (check.sweep options owner element)
        (check.swept options owner element)).through view := by
    rw [retouch.swept]
    apply ElementCheck.ruleFindings_through check hook rfl rfl
    · intro name consulted
      rw [ElementCheck.has_sweep_consulted _ _ _ _ name consulted,
        ElementCheck.has_sweep_consulted _ _ _ _ name consulted, retouch.has]
    · exact retouch.readAlike _ tag
    · intro _
      rw [retouch.find?]
      cases (check.swept options owner element).find? "src" with
      | none => exact .none
      | some source => exact .some (retouch.report _ source)
  rw [ElementCheck.findings, ElementCheck.findings]
  simp only [Findings.through_append, rule]
  rw [Element.retouched, retouch.repeats, ElementCheck.sweep, retouch.sweep]
  rfl

end Retouch

namespace Element

variable {view : View} {touch : Attribute → Attribute} {element : Element} {tag : String}
    (retouch : Retouch view touch (.ofTag element.tag) (.ofTag tag)) (options : Options)
    (hook : IdRepair.BuiltIn)
include retouch

theorem check_retouched : (element.retouched tag touch).check = element.check :=
  congrArg (fun rule : Option ElementRule => (rule.map ElementRule.check).getD .generic)
    retouch.rule

theorem repair_retouched :
    (element.retouched tag touch).repair options hook.rule =
      (element.repair options hook.rule).retouched tag touch := by
  rw [repair, check_retouched retouch]
  exact retouch.repairElement element.check options hook element tag

theorem findings_retouched :
    ((element.retouched tag touch).findings options hook.rule).through view =
      (element.findings options hook.rule).through view := by
  rw [findings_through, findings_through, check_retouched retouch]
  exact retouch.checkFindings element.check options hook element tag

end Element

end HtmlConformance
