import HtmlConformance.Proofs.Check.Retouch
import HtmlConformance.Proofs.Check.Subjects
import HtmlConformance.Proofs.Pairing

namespace HtmlConformance

/-! Template code in attributes. An attribute that bears some is exempt from reports on repeated
and on unknown names. Nothing else depends on template code, and the other attributes are not
reported for it that some attribute is exempt. -/

/-! ## Attributes that gain template code -/

namespace Attribute

def withoutFragment (attr : Attribute) : Attribute := { attr with fragment := none }

/-- The attribute stays as it is, but that template code may come to it if it has none. -/
structure GainsFragment (before after : Attribute) : Prop where
  same : after.withoutFragment = before.withoutFragment
  kept : before.isTemplated = true → after.fragment = before.fragment

/-- Attributes with the template code of the attributes that stand at their places in another
list, and with none where that list is at its end. -/
def takeFragments : List Attribute → List Attribute → List Attribute
  | _, [] => []
  | source, attr :: later =>
      { attr with fragment := source.head?.bind Attribute.fragment } ::
        takeFragments source.tail later

theorem takeFragments_withoutFragment (source attributes : List Attribute) :
    takeFragments source (attributes.map withoutFragment) = takeFragments source attributes := by
  induction attributes generalizing source with
  | nil => rfl
  | cons attr later induction =>
      rw [List.map_cons, takeFragments, takeFragments, induction]
      rfl

theorem takeFragments_nil (attributes : List Attribute) :
    takeFragments [] attributes = attributes.map withoutFragment := by
  induction attributes with
  | nil => rfl
  | cons attr later induction => exact congrArg _ induction

theorem takeFragments_append {source kept : List Attribute}
    (same : List.Forall₂ (fun given attr : Attribute => attr.fragment = given.fragment) source kept)
    {appended : List Attribute} (plain : ∀ attr ∈ appended, attr.withoutFragment = attr) :
    takeFragments source (kept ++ appended) = kept ++ appended := by
  induction same with
  | nil => rw [List.nil_append, takeFragments_nil, List.map_congr_left plain, List.map_id']
  | @cons given attr _ _ head _ induction =>
      have whole : ({ attr with fragment := given.fragment } : Attribute) = attr := by rw [← head]
      rw [List.cons_append, takeFragments]
      simp only [List.head?_cons, Option.bind_some, List.tail_cons, whole, induction]

end Attribute

def View.templateless : View := .except [.repeatedAttribute, .unknownAttribute]

theorem retouch_withoutFragment (tag : String) :
    Retouch .templateless Attribute.withoutFragment (.ofTag tag) (.ofTag tag) where
  name attr := Text.alike_self attr.name
  value _ := rfl
  update _ _ := rfl
  supplied _ _ := rfl
  rule := rfl
  onAttribute _ _ := rfl
  onName _ _ := rfl
  onElement _ := rfl
  templates := .inr ⟨View.hides_except (by decide), View.hides_except (by decide)⟩

/-! ## Elements that gain template code -/

namespace Element

structure GainsFragments (before after : Element) : Prop where
  tag : after.tag = before.tag
  attributes : List.Forall₂ Attribute.GainsFragment before.attributes after.attributes

def withoutFragments (element : Element) : Element :=
  element.retouched element.tag Attribute.withoutFragment

/-- An element with the template code of another, attribute by attribute. -/
def takeFragments (source element : Element) : Element :=
  { element with attributes := Attribute.takeFragments source.attributes element.attributes }

variable (options : Options) (hook : IdRepair.BuiltIn)

theorem findings_withoutFragments (element : Element) :
    (element.withoutFragments.findings options hook.rule).through .templateless =
      (element.findings options hook.rule).through .templateless :=
  findings_retouched (retouch_withoutFragment element.tag) options hook

theorem repair_withoutFragments (element : Element) :
    element.withoutFragments.repair options hook.rule =
      (element.repair options hook.rule).withoutFragments := by
  rw [withoutFragments, repair_retouched (retouch_withoutFragment element.tag),
    withoutFragments, tag_repair]

theorem takeFragments_withoutFragments (source element : Element) :
    source.takeFragments element.withoutFragments = source.takeFragments element :=
  congrArg (Element.mk element.tag) (Attribute.takeFragments_withoutFragment _ _)

/-- A repair leaves template code where it is and brings none. -/
theorem takeFragments_repair (element : Element) :
    element.takeFragments (element.repair options hook.rule) =
      element.repair options hook.rule := by
  have rewritten := (element.check.sameButValues_rewrite options (.ofTag element.tag)
    element).imp fun _ _ same => same.fragment
  have plain : ∀ attr ∈ (element.check.appended options hook (.ofTag element.tag)
      (element.check.rewrite options (.ofTag element.tag) element)).toList,
      attr.withoutFragment = attr := by
    intro attr member
    rcases ElementCheck.supplied_of_appended _ options hook _ _ (Option.mem_toList.mp member) with
      ⟨supplied, text, _, rfl, _⟩
    rfl
  have attributes := Attribute.takeFragments_append rewritten plain
  rw [← ElementCheck.attributes_repair] at attributes
  exact congrArg (Element.mk _) attributes

namespace GainsFragments

variable {before after : Element} (gains : before.GainsFragments after)
include gains

theorem withoutFragments_eq : after.withoutFragments = before.withoutFragments := by
  have attributes : after.attributes.map Attribute.withoutFragment =
      before.attributes.map Attribute.withoutFragment := by
    rw [map_eq_map_iff_forall₂]
    exact gains.attributes.flip.imp fun _ _ gained => gained.same
  exact congrArg₂ Element.mk gains.tag attributes

theorem findings_through :
    (after.findings options hook.rule).through .templateless =
      (before.findings options hook.rule).through .templateless := by
  rw [← findings_withoutFragments, gains.withoutFragments_eq, findings_withoutFragments]

theorem repair_eq :
    after.takeFragments (before.repair options hook.rule) = after.repair options hook.rule := by
  rw [← takeFragments_withoutFragments, ← repair_withoutFragments, ← gains.withoutFragments_eq,
    repair_withoutFragments, takeFragments_withoutFragments, takeFragments_repair]

end GainsFragments

end Element

/-! ## Reports that remain -/

section

variable {before after : List Attribute}
    (gains : List.Forall₂ Attribute.GainsFragment before after)
include gains

/-- Among attributes without template code, those that satisfy a test only become fewer, and stay
in their order. -/
theorem Attribute.sublist_untemplated (test : Attribute → Bool)
    (blind : ∀ attr, test attr.withoutFragment = test attr) :
    ((after.filter fun attr => !attr.isTemplated && test attr).map withoutFragment).Sublist
      ((before.filter fun attr => !attr.isTemplated && test attr).map withoutFragment) := by
  induction gains with
  | nil => exact .slnil
  | @cons first second _ _ head _ induction =>
      have tested : test second = test first := by rw [← blind, head.same, blind]
      rw [List.filter_cons, List.filter_cons]
      by_cases counts : (!second.isTemplated && test second) = true
      · -- What has no template code now had none before.
        have counted : (!first.isTemplated && test first) = true := by
          rw [← tested]
          cases templated : first.isTemplated with
          | false => exact (Bool.and_eq_true_iff.mp counts).2
          | true => rwa [isTemplated, head.kept templated, ← isTemplated, templated] at counts
        rw [if_pos counts, if_pos counted, List.map_cons, List.map_cons, head.same]
        exact .cons_cons _ induction
      · rw [if_neg counts]
        split
        · exact .cons _ induction
        · exact induction

theorem Repeats.subperm_subjects_of_gains :
    ((subjects after).map Attribute.withoutFragment).Subperm
      ((subjects before).map Attribute.withoutFragment) := by
  -- The reports move between attributes of one name, so each name is counted by itself.
  apply subperm_of_groups fun attr => Text.folded attr.name
  intro name
  have group (attributes : List Attribute) :
      ((subjects attributes).map Attribute.withoutFragment).filter
          (fun attr => Text.folded attr.name == name) =
        ((attributes.filter fun attr => !attr.isTemplated && Text.folded attr.name == name).map
          Attribute.withoutFragment).tail := by
    rw [List.filter_map, ← List.map_tail, ← filter_subjects]
    rfl
  rw [group, group]
  exact (Attribute.sublist_untemplated gains _ fun _ => rfl).tail.subperm

end

theorem Attribute.isUnknown_eq (options : Options) (owner : Owner) (attr : Attribute) :
    attr.isUnknown options owner =
      (!attr.isTemplated && attr.withoutFragment.isUnknown options owner) := by
  have rule? : attr.withoutFragment.rule? = attr.rule? := rfl
  have plain : attr.withoutFragment.isTemplated = false := rfl
  simp only [isUnknown, isExcused, rule?, plain]
  cases attr.isTemplated <;> simp

theorem Findings.reportsOf_through_except {kinds : List DiagnosticKind} {kind : DiagnosticKind}
    (unlisted : kind ∉ kinds) (findings : Findings) :
    (findings.through (.except kinds)).reportsOf kind = findings.reportsOf kind := by
  rw [reportsOf, diagnostics_through, View.filterMap_except, List.filter_filter, reportsOf]
  apply List.filter_congr
  intro diagnostic _
  by_cases same : diagnostic.kind = kind
  · simp [same, unlisted]
  · simp [same]

namespace Element.GainsFragments

variable {before after : Element} (gains : before.GainsFragments after) (options : Options)
    (hook : IdRepair.BuiltIn)
include gains

theorem subperm_repeated :
    (after.repeated.map Attribute.withoutFragment).Subperm
      (before.repeated.map Attribute.withoutFragment) :=
  Repeats.subperm_subjects_of_gains gains.attributes

theorem subperm_unknown :
    ((after.unknown options).map Attribute.withoutFragment).Subperm
      ((before.unknown options).map Attribute.withoutFragment) := by
  have unknown (element : Element) : element.unknown options =
      element.attributes.filter fun attr => !attr.isTemplated &&
        attr.withoutFragment.isUnknown options (.ofTag element.tag) :=
    List.filter_congr fun attr _ => attr.isUnknown_eq options (.ofTag element.tag)
  rw [unknown, unknown, gains.tag]
  exact (Attribute.sublist_untemplated gains.attributes _ fun _ => rfl).subperm

theorem subperm_reportsOf (kind : DiagnosticKind) :
    ((after.findings options hook.rule).reportsOf kind).Subperm
      ((before.findings options hook.rule).reportsOf kind) := by
  have blind (attributes : List Attribute) :
      attributes.map (Diagnostic.onAttribute kind before.tag) =
        (attributes.map Attribute.withoutFragment).map (.onAttribute kind before.tag) := by
    rw [List.map_map]
    rfl
  by_cases repeated : kind = .repeatedAttribute
  · subst repeated
    rw [reportsOf_repeated, reportsOf_repeated, gains.tag, blind, blind before.repeated]
    exact map_subperm _ gains.subperm_repeated
  by_cases unknown : kind = .unknownAttribute
  · subst unknown
    rw [reportsOf_unknown, reportsOf_unknown, gains.tag, blind, blind (before.unknown options)]
    exact map_subperm _ (gains.subperm_unknown options)
  · have unlisted : kind ∉ [.repeatedAttribute, .unknownAttribute] := by simp [repeated, unknown]
    have seen := gains.findings_through options hook
    rw [← Findings.reportsOf_through_except unlisted (after.findings options hook.rule),
      ← Findings.reportsOf_through_except unlisted (before.findings options hook.rule)]
    exact (congrArg (Findings.reportsOf kind) seen) ▸ .refl _

end Element.GainsFragments

/-! ## Documents -/

/-- The reports of a kind are made, element by element, on the given attributes, which are
different ones and bear no template code. -/
structure Pass.ReportsOn (pass : Pass) (kind : DiagnosticKind)
    (subjects : Element → List Attribute) (nodes : List Node) : Prop where
  reports : (pass.diagnostics.toList.filter fun diagnostic => diagnostic.kind == kind) =
    (Node.elementsAll nodes).flatMap fun element =>
      (subjects element).map (.onAttribute kind element.tag)
  untemplated : ∀ element ∈ Node.elementsAll nodes,
    (subjects element).Subperm (element.attributes.filter fun attr => !attr.isTemplated)

namespace Arena

theorem reportsOf_firstPass (options : Options) (hook : IdRepair) (nodes : List Node)
    (kind : DiagnosticKind) :
    ((firstPass options hook nodes).2.diagnostics.toList.filter fun diagnostic =>
        diagnostic.kind == kind) =
      (Node.elementsAll nodes).flatMap fun element =>
        (element.findings options hook).reportsOf kind := by
  rw [firstPass_snd, Pass.diagnostics_absorb_start]
  exact (Findings.reportsOf_joinAll kind _).trans (List.flatMap_map _ _ _)

theorem reportsOn_repeated (options : Options) (hook : IdRepair.BuiltIn) (nodes : List Node) :
    (firstPass options hook.rule nodes).2.ReportsOn .repeatedAttribute Element.repeated nodes where
  reports := by simp only [reportsOf_firstPass, Element.reportsOf_repeated]
  untemplated element _ := element.subperm_repeated

theorem reportsOn_unknown (options : Options) (hook : IdRepair.BuiltIn) (nodes : List Node) :
    (firstPass options hook.rule nodes).2.ReportsOn .unknownAttribute (Element.unknown options)
      nodes where
  reports := by simp only [reportsOf_firstPass, Element.reportsOf_unknown]
  untemplated element _ := element.subperm_unknown options

/-- Template code only silences, and only reports on repeated and on unknown names. If it comes
to some attributes that had none, a pass comes to the same verdict and repairs the same, and its
diagnostics are part of what they were without it; none of them that is of these two kinds is about
an attribute with template code. -/
theorem template_code_only_silences (options : Options) (hook : IdRepair.BuiltIn)
    {nodes templated : List Node}
    (gains : Node.PairedAll Element.GainsFragments nodes templated) :
    let first := firstPass options hook.rule nodes
    let second := firstPass options hook.rule templated
    first.2.SameVerdict second.2 ∧
      second.1.toNodes = Node.besideAll Element.takeFragments templated first.1.toNodes ∧
      second.2.diagnostics.toList.Subperm first.2.diagnostics.toList ∧
      (∀ diagnostic ∈ first.2.diagnostics.toList.diff second.2.diagnostics.toList,
        diagnostic.kind = .repeatedAttribute ∨ diagnostic.kind = .unknownAttribute) ∧
      second.2.ReportsOn .repeatedAttribute Element.repeated templated ∧
      second.2.ReportsOn .unknownAttribute (Element.unknown options) templated := by
  intro first second
  obtain ⟨verdict, seen⟩ := seen_firstPass
    (gains.elementsAll.imp fun _ _ gained => (gained.findings_through options hook).symm)
  have fewer : second.2.diagnostics.toList.Subperm first.2.diagnostics.toList := by
    apply subperm_of_groups Diagnostic.kind
    intro kind
    rw [reportsOf_firstPass, reportsOf_firstPass]
    exact flatMap_subperm
      (gains.elementsAll.flip.imp fun _ _ gained => gained.subperm_reportsOf options hook kind)
  refine ⟨verdict, ?_, fewer, ?_, reportsOn_repeated options hook templated,
    reportsOn_unknown options hook templated⟩
  · rw [toNodes_firstPass, toNodes_firstPass]
    exact (gains.besideAll_mapElementsAll fun _ _ gained => gained.repair_eq options hook).symm
  · intro diagnostic missing
    rw [View.templateless, View.filterMap_except, View.filterMap_except] at seen
    have listed : diagnostic.kind ∈ [.repeatedAttribute, .unknownAttribute] :=
      List.contains_iff_mem.mp (Bool.not_eq_eq_eq_not.mp (eq_false_of_mem_diff seen missing))
    simpa using listed

/-- Of three classes the second comes to hold template code. The third is then reported as
repeated for the sake of the first, and the second no more. -/
theorem template_code_only_silences_of_classes :
    let given (value : String) (fragment : Option Fragment) : Attribute :=
      { name := "class", value := some value, fragment }
    let code : Fragment := { language := .php, source := "echo $kind;" }
    let nodes : List Node := [.element ⟨"p", [given "a" none, given "b" none, given "c" none]⟩ []]
    let templated : List Node :=
      [.element ⟨"p", [given "a" none, given "b" (some code), given "c" none]⟩ []]
    Node.PairedAll Element.GainsFragments nodes templated ∧
      (firstPass {} IdRepair.none templated).2.diagnostics.toList.Subperm
        (firstPass {} IdRepair.none nodes).2.diagnostics.toList ∧
      (firstPass {} IdRepair.none templated).2.diagnostics.toList =
        [.onAttribute .repeatedAttribute "p" (given "c" none)] := by
  intro given code nodes templated
  have gains : Node.PairedAll Element.GainsFragments nodes templated := by
    refine ⟨⟨⟨rfl, ?_⟩, trivial⟩, trivial⟩
    refine .cons ⟨rfl, fun _ => rfl⟩ (.cons ⟨rfl, ?_⟩ (.cons ⟨rfl, fun _ => rfl⟩ .nil))
    exact fun bears => absurd bears (by decide)
  refine ⟨gains, (template_code_only_silences {} .none gains).2.2.1, ?_⟩
  rw [firstPass_snd, Pass.diagnostics_absorb_start]
  cbv

end Arena

end HtmlConformance
