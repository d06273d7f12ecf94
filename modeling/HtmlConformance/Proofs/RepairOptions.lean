import HtmlConformance.Proofs.Check.Comparison
import HtmlConformance.Proofs.Pairing
import HtmlConformance.Proofs.Rule.Element

namespace HtmlConformance

/-! The options for repairs: slashes for backslashes in URLs, and a text for images that have
none. They bear on the repaired document and on nothing else, because what they rewrite or supply
is not looked at again, but for the source of a line, which is reported as it then reads. -/

def Text.slashed (text : String) : String :=
  text.map fun char => if char = '\\' then '/' else char

theorem Text.slashed_slashed (text : String) : slashed (slashed text) = slashed text := by
  unfold slashed
  rw [String.map_map]
  congr 1
  funext char
  simp only [Function.comp_apply]
  split <;> simp_all

/-- The same options, with every backslash of a URL rewritten and no text supplied. -/
def Options.settled (options : Options) : Options :=
  { options with slashUrls := true, fallbackAlt := none }

/-! ## Single attributes -/

namespace Attribute

/-- The attribute with slashes for backslashes, if its value is a URL. -/
def slashed (attr : Attribute) : Attribute :=
  if attr.valueRule? = some .url then
    { attr with value := attr.value.map Text.slashed }
  else
    attr

variable (attr : Attribute) (options : Options)

@[simp] theorem isNamed_slashed (name : String) :
    attr.slashed.isNamed name = attr.isNamed name := by
  unfold slashed
  split <;> rfl

theorem slashed_of_not_url (other : attr.valueRule? ≠ some .url) : attr.slashed = attr :=
  if_neg other

theorem repair_settled_of_not_url (other : attr.valueRule? ≠ some .url) :
    attr.repair options.settled = attr.repair options := by
  cases found : attr.valueRule? with
  | none => rw [repair_of_no_valueRule? _ _ found, repair_of_no_valueRule? _ _ found]
  | some rule =>
      rw [repair_of_valueRule? _ _ found, repair_of_valueRule? _ _ found]
      rw [found] at other
      cases rule with
      | url => exact absurd rfl other
      | _ => rfl

theorem slashed_repair : (attr.repair options).slashed = attr.repair options.settled := by
  by_cases url : attr.valueRule? = some .url
  · have written : (attr.repair options).valueRule? = some .url := by rw [valueRule?_repair, url]
    rw [slashed, if_pos written, repair_of_valueRule? _ _ url, repair_of_valueRule? _ _ url]
    have once (value : String) : Text.slashed (ValueRule.url.repairValue options value) =
        Text.slashed value := by
      simp only [ValueRule.repairValue]
      split
      · exact Text.slashed_slashed value
      · rfl
    simp only [ValueRule.repair, Option.map_map, Function.comp_def, once]
    rfl
  · rw [repair_settled_of_not_url attr options url]
    apply slashed_of_not_url
    rwa [valueRule?_repair]

end Attribute

/-! ## Diagnostics -/

namespace Diagnostic

/-- Whether the diagnostic complains of the source of a line. -/
def isLineSource (diagnostic : Diagnostic) : Bool :=
  diagnostic.kind == .proprietaryAttributeValue && Text.alike diagnostic.element "hr" &&
    diagnostic.attributeName.any fun name => Text.alike name "src"

/-- The diagnostics are the same, but that the source of a line may stand with slashes in one
and with backslashes in the other. -/
structure SameButSlashes (left right : Diagnostic) : Prop where
  kind : left.kind = right.kind
  element : left.element = right.element
  attributeName : left.attributeName = right.attributeName
  value : if left.isLineSource then
      left.value.map Text.slashed = right.value.map Text.slashed
    else
      left.value = right.value

def slashed (diagnostic : Diagnostic) : Diagnostic :=
  if diagnostic.isLineSource then
    { diagnostic with value := diagnostic.value.map Text.slashed }
  else
    diagnostic

theorem sameButSlashes_of_slashed {left right : Diagnostic}
    (same : left.slashed = right.slashed) : left.SameButSlashes right := by
  have kept (diagnostic : Diagnostic) : diagnostic.slashed =
      { diagnostic with
        value := if diagnostic.isLineSource then diagnostic.value.map Text.slashed
          else diagnostic.value } := by
    unfold slashed
    split <;> rfl
  rw [kept left, kept right, Diagnostic.mk.injEq] at same
  obtain ⟨kind, element, attributeName, value⟩ := same
  have source : right.isLineSource = left.isLineSource := by
    simp only [isLineSource, kind, element, attributeName]
  refine ⟨kind, element, attributeName, ?_⟩
  rw [source] at value
  by_cases line : left.isLineSource = true
  · rw [if_pos line, if_pos line] at value
    rwa [if_pos line]
  · rw [if_neg line, if_neg line] at value
    rwa [if_neg line]

end Diagnostic

def View.slashed : View := .mapped Diagnostic.slashed

/-! ## Elements -/

/-- No URL is among the values that the rules of checks read, but for the source of a line. -/
theorem valueRule?_ne_url_of_read {name : String} (read : name ∈ readNames) {attr : Attribute}
    (named : attr.isNamed name = true) : attr.valueRule? ≠ some .url := by
  have rows : (readNames.all fun name =>
      (AttributeRule.find? name).bind AttributeRule.value != some .url) = true := by cbv
  rw [Attribute.valueRule?_of_isNamed rfl named]
  exact bne_iff_ne.mp (List.all_eq_true.mp rows name read)

theorem Owner.report_source_through {owner : Owner} (line : Text.alike owner.tag "hr" = true)
    {source : Attribute} (named : source.isNamed "src" = true) (options : Options) :
    (owner.report .proprietaryAttributeValue (source.repair options)).through .slashed =
      owner.report .proprietaryAttributeValue (source.repair options.settled) := by
  have url : source.valueRule? = some .url := Attribute.valueRule?_of_isNamed (by cbv) named
  have written : (source.repair options).valueRule? = some .url := by
    rw [Attribute.valueRule?_repair, url]
  have named' : Text.alike source.name "src" = true := named
  rw [← Attribute.slashed_repair, Attribute.slashed, if_pos written]
  simp [Owner.report, Findings.through, Findings.raise, View.slashed, View.mapped,
    Diagnostic.slashed, Diagnostic.isLineSource, Diagnostic.onAttribute, line, named']

theorem Supplied.slashed_valued (supplied : Supplied) (text : String) :
    (Attribute.valued supplied.name text).slashed = .valued supplied.name text := by
  apply Attribute.slashed_of_not_url
  rw [Attribute.valueRule?, Attribute.rule?, Attribute.valued, supplied.find?_name]
  cases supplied <;> decide

namespace ElementCheck

variable (check : ElementCheck) (options : Options) (hook : IdRepair.BuiltIn) (owner : Owner)
    (element : Element)

theorem swept_readAlike_settled (view : View) :
    (check.swept options owner element).ReadAlike view owner owner
      (check.swept options.settled owner element) where
  has name _ := by
    rw [Element.has_eq_isSome, Element.has_eq_isSome, find?_swept, find?_swept,
      Option.isSome_map, Option.isSome_map]
  find? name read := by
    rw [find?_swept, find?_swept]
    cases found : element.find? name with
    | none => exact .none
    | some attr =>
        have other := valueRule?_ne_url_of_read read (Element.isNamed_of_find? found)
        rw [Option.map_some, Option.map_some, attr.repair_settled_of_not_url options other]
        exact .some ⟨rfl, fun _ => rfl⟩
  missing _ := rfl
  unmapped := rfl

theorem findings_settled (tagged : check = .line → Text.alike owner.tag "hr" = true) :
    (check.findings options hook.rule owner element).through .slashed =
      (check.findings options.settled hook.rule owner element).through .slashed := by
  have rule : (check.ruleFindings options hook.rule owner (check.sweep options owner element)
        (check.swept options owner element)).through .slashed =
      (check.ruleFindings options.settled hook.rule owner
        (check.sweep options.settled owner element)
        (check.swept options.settled owner element)).through .slashed := by
    apply check.ruleFindings_through hook
    · rfl
    · rfl
    · exact fun _ _ => rfl
    · exact check.swept_readAlike_settled options owner element .slashed
    · -- The source of a line is the one URL that is looked at after its repair.
      intro line
      rw [find?_swept, find?_swept]
      cases found : element.find? "src" with
      | none => exact .none
      | some source =>
          have reported := Owner.report_source_through (tagged line)
            (Element.isNamed_of_find? found)
          exact .some ((reported options).trans (reported options.settled).symm)
  simp only [findings, Findings.through_append, rule]
  rfl

/-! ### Repairs -/

theorem slashed_swept :
    (check.swept options owner element).attributes.map Attribute.slashed =
      (check.swept options.settled owner element).attributes := by
  simp only [attributes_swept, List.map_map, Function.comp_def, Attribute.slashed_repair]

theorem widen_slashed (attr : Attribute) : widen attr.slashed = (widen attr).slashed := by
  have one : Text.slashed "1" = "1" := by cbv
  have rule : (widen attr).valueRule? = attr.valueRule? := rfl
  rw [Attribute.slashed, Attribute.slashed, rule]
  split
  · cases valued : attr.value with
    | none => simp [widen, valued, one]
    | some value => simp [widen, valued]
  · rfl

theorem slashed_rewrite :
    (check.rewrite options owner element).attributes.map Attribute.slashed =
      (check.rewrite options.settled owner element).attributes := by
  have swept := check.slashed_swept options owner element
  by_cases tabled : check = .table
  · subst tabled
    have output : options.settled.xmlOutput = options.xmlOutput := rfl
    simp only [rewrite, output]
    split
    · simp only [Element.modify, ← swept]
      exact (updateFirst_map (fun attr => attr.isNamed_slashed "border") widen_slashed _).symm
    · exact swept
  · rw [rewrite_eq_swept _ _ _ _ tabled, rewrite_eq_swept _ _ _ _ tabled, swept]

theorem slashed_of_appended {attr : Attribute}
    (appends : check.appended options hook owner element = some attr) : attr.slashed = attr := by
  rcases supplied_of_appended check options hook owner element appends with
    ⟨supplied, text, _, rfl, _⟩
  exact supplied.slashed_valued text

theorem appended_settled (pictureless : check ≠ .image) :
    check.appended options hook owner (check.rewrite options owner element) =
      check.appended options.settled hook owner (check.rewrite options.settled owner element) := by
  by_cases tabled : check = .table
  · subst tabled
    rfl
  · rw [rewrite_eq_swept _ _ _ _ tabled, rewrite_eq_swept _ _ _ _ tabled]
    exact check.appended_eq hook rfl (fun picture => absurd picture pictureless)
      (check.swept_readAlike_settled options owner element .whole)

end ElementCheck

namespace Element

/-- Whether an attribute of a repaired image is the text that it had none of before. -/
def isFallback (before : Element) (attr : Attribute) : Bool :=
  before.isTagged "img" && !before.has "alt" && attr.isNamed "alt"

/-- A repaired element as it is apart from what the options for repairs ask for: its URLs with
slashes, and without the text of an image that had none. -/
def withoutRepairs (before after : Element) : Element :=
  { after with
    attributes := (after.attributes.filter fun attr => !before.isFallback attr).map
      Attribute.slashed }

variable (options : Options) (hook : IdRepair.BuiltIn) (owner : Owner) (element : Element)

theorem findings_settled :
    (element.findings options hook.rule).through .slashed =
      (element.findings options.settled hook.rule).through .slashed := by
  have tagged : element.check = .line → Text.alike (Owner.ofTag element.tag).tag "hr" = true := by
    intro line
    have same := element.check_beq_line
    rw [line, beq_self_eq_true] at same
    exact same.symm
  rw [findings_through, findings_through, ElementCheck.findings_settled _ _ _ _ _ tagged]

theorem filter_rewrite_isFallback (check : ElementCheck) :
    (check.rewrite options owner element).attributes.filter
        (fun attr => !element.isFallback attr) =
      (check.rewrite options owner element).attributes := by
  rw [List.filter_eq_self]
  intro attr member
  cases described : element.has "alt" with
  | true => simp [isFallback, described]
  | false =>
      have absent : (check.rewrite options owner element).has "alt" = false := by
        rw [ElementCheck.has_rewrite, described]
      simp [isFallback, isNamed_eq_false_of_not_has absent member]

theorem isFallback_of_appended (image : element.check = .image) {attr : Attribute}
    (appends : element.check.appended options hook owner
      (element.check.rewrite options owner element) = some attr) :
    element.isFallback attr = true := by
  have tagged := element.check_beq_image
  rcases ElementCheck.supplied_of_appended _ options hook owner _ appends with
    ⟨supplied, text, supplies, rfl, absent⟩
  rw [image] at supplies
  rw [ElementCheck.has_rewrite, ← Option.some.inj supplies] at absent
  have named : (Attribute.valued Supplied.alt.name text).isNamed "alt" = true := by
    simp [Attribute.isNamed, Attribute.valued, Supplied.name]
  rw [image, beq_self_eq_true] at tagged
  rw [← Option.some.inj supplies, isFallback, ← tagged, named]
  simpa [Supplied.name] using absent

theorem isFallback_of_not_image (pictureless : element.check ≠ .image) (attr : Attribute) :
    element.isFallback attr = false := by
  have tagged := element.check_beq_image
  rw [beq_eq_false_iff_ne.mpr pictureless] at tagged
  rw [isFallback, ← tagged, Bool.false_and, Bool.false_and]

theorem filter_appended_isFallback :
    ((element.check.appended options hook owner
        (element.check.rewrite options owner element)).toList.filter
          fun attr => !element.isFallback attr).map Attribute.slashed =
      (element.check.appended options.settled hook owner
        (element.check.rewrite options.settled owner element)).toList := by
  by_cases image : element.check = .image
  · have nothing : element.check.appended options.settled hook owner
        (element.check.rewrite options.settled owner element) = none := by
      rw [image]
      exact ite_self none
    rw [nothing]
    cases appends : element.check.appended options hook owner
        (element.check.rewrite options owner element) with
    | none => rfl
    | some attr =>
        have dropped := isFallback_of_appended options hook owner element image appends
        simp [dropped]
  · have same := element.check.appended_settled options hook owner element image
    rw [← same]
    cases appends : element.check.appended options hook owner
        (element.check.rewrite options owner element) with
    | none => rfl
    | some attr =>
        have kept := element.isFallback_of_not_image image attr
        have slashed := element.check.slashed_of_appended options hook owner _ appends
        simp [kept, slashed]

theorem withoutRepairs_repair :
    element.withoutRepairs (element.repair options hook.rule) =
      element.repair options.settled hook.rule := by
  have attributes : (element.withoutRepairs (element.repair options hook.rule)).attributes =
      (element.repair options.settled hook.rule).attributes := by
    rw [withoutRepairs, repair, repair, ElementCheck.attributes_repair,
      ElementCheck.attributes_repair, List.filter_append, List.map_append,
      filter_rewrite_isFallback, filter_appended_isFallback, ElementCheck.slashed_rewrite]
  have tag : (element.withoutRepairs (element.repair options hook.rule)).tag =
      (element.repair options.settled hook.rule).tag := by
    rw [withoutRepairs, tag_repair, tag_repair]
  exact congrArg₂ Element.mk tag attributes

end Element

/-! ## Documents -/

namespace Arena

/-- The options for repairs do not change the verdict. Whether URLs are to have slashes, and
which text images are to be given, a pass comes to the same verdict and reports the same, but that
the source of a line is reported as it reads after its repair. The repaired documents are one and
the same apart from these repairs. -/
theorem repair_options_keep_verdict (options : Options) (hook : IdRepair.BuiltIn)
    (nodes : List Node) (slashUrls slashUrls' : Bool) (fallbackAlt fallbackAlt' : Option String) :
    let first := firstPass { options with slashUrls, fallbackAlt } hook.rule nodes
    let second :=
      firstPass { options with slashUrls := slashUrls', fallbackAlt := fallbackAlt' } hook.rule
        nodes
    first.2.SameVerdict second.2 ∧
      List.Forall₂ Diagnostic.SameButSlashes first.2.diagnostics.toList
        second.2.diagnostics.toList ∧
      Node.besideAll Element.withoutRepairs nodes first.1.toNodes =
        Node.besideAll Element.withoutRepairs nodes second.1.toNodes := by
  let left : Options := { options with slashUrls, fallbackAlt }
  let right : Options := { options with slashUrls := slashUrls', fallbackAlt := fallbackAlt' }
  intro first second
  have same : left.settled = right.settled := rfl
  have alike : ∀ element ∈ Node.elementsAll nodes,
      (element.findings left hook.rule).through .slashed =
        (element.findings right hook.rule).through .slashed := by
    intro element _
    rw [element.findings_settled left, element.findings_settled right, same]
  have settled (options : Options) :
      Node.besideAll Element.withoutRepairs nodes (firstPass options hook.rule nodes).1.toNodes =
        Node.mapElementsAll (fun element => element.repair options.settled hook.rule) nodes := by
    rw [toNodes_firstPass]
    apply (Node.pairedAll_refl (fun element => Eq.refl element) nodes).besideAll_mapElementsAll
    rintro element _ rfl
    exact element.withoutRepairs_repair options hook
  obtain ⟨verdict, seen⟩ := seen_firstPass (List.forall₂_same.mpr alike)
  refine ⟨verdict, View.forall₂_of_mapped Diagnostic.sameButSlashes_of_slashed seen, ?_⟩
  rw [settled left, settled right, same]

end Arena

end HtmlConformance
