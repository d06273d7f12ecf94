import HtmlConformance.Proofs.Check.Sweep
import HtmlConformance.Proofs.Element

namespace HtmlConformance

/-! What a check does to an element: it rewrites values, and it appends at most one
attribute, under a name that no attribute has. -/

/-! ## Names that the checks ask for -/

/-- The attribute names on which the checks of elements depend. -/
def consultedNames : List String :=
  ["align", "alt", "border", "datafld", "height", "href", "id", "ismap", "name", "rel", "src",
    "summary", "type", "usemap", "width", "xmlns"]

theorem isKnown_of_consulted {name : String} (consulted : name ∈ consultedNames) :
    AttributeRule.IsKnown name := by
  have all : (consultedNames.all fun name =>
      (AttributeRule.find? name).map AttributeRule.name == some name) = true := by cbv
  exact eq_of_beq (List.all_eq_true.mp all name consulted)

namespace Attribute

variable {attr : Attribute} (options : Options)

theorem valueRule?_of_isNamed {name : String} {value : Option ValueRule}
    (row : (AttributeRule.find? name).bind AttributeRule.value = value)
    (named : attr.isNamed name = true) : attr.valueRule? = value := by
  rw [valueRule?, rule?, AttributeRule.find?_congr named, row]

theorem repair_align (named : attr.isNamed "align" = true) : attr.repair options = attr := by
  have rule : attr.valueRule? = some .align := valueRule?_of_isNamed (by cbv) named
  exact repair_of_fixed attr options rule fun _ => rfl

theorem repair_name (named : attr.isNamed "name" = true) : attr.repair options = attr := by
  have rule : attr.valueRule? = some .name := valueRule?_of_isNamed (by cbv) named
  exact repair_of_fixed attr options rule fun _ => rfl

theorem valueRule?_border (named : attr.isNamed "border" = true) :
    attr.valueRule? = some .bool :=
  valueRule?_of_isNamed (by cbv) named

theorem repair_border (named : attr.isNamed "border" = true) : attr.repair options = attr :=
  repair_of_fixed attr options (valueRule?_border named) fun _ => rfl

end Attribute

/-! ## Rewritten values -/

namespace ElementCheck

variable (check : ElementCheck) (options : Options) (owner : Owner) (element : Element)

theorem attributes_swept :
    (check.swept options owner element).attributes =
      element.attributes.map fun attr => attr.repair options := by
  rw [swept, sweep, Sweep.run]
  apply List.map_congr_left
  intro attr _
  cases check with
  | caption =>
      have known : AttributeRule.IsKnown "align" :=
        isKnown_of_consulted (by simp [consultedNames])
      simp only [skips, Option.any_some, Sweep.resolvesTo_eq_isNamed known]
      split
      next placed => exact (Attribute.repair_align options placed).symm
      next => rfl
  | _ => rfl

theorem find?_swept (name : String) :
    (check.swept options owner element).find? name =
      (element.find? name).map fun attr => attr.repair options := by
  simp only [Element.find?, attributes_swept, List.find?_map, Function.comp_def,
    Attribute.isNamed_repair]

def widen (border : Attribute) : Attribute :=
  { border with value := some (border.value.getD "1") }

/-- The element with its values rewritten, before any attribute is appended. -/
def rewrite : Element :=
  let swept := check.swept options owner element
  match check with
  | table => if options.xmlOutput then swept.modify "border" widen else swept
  | _ => swept

@[simp] theorem tag_rewrite : (check.rewrite options owner element).tag = element.tag := by
  unfold rewrite
  split
  · split <;> rfl
  · rfl

theorem rewrite_eq_swept (untabled : check ≠ .table) :
    check.rewrite options owner element = check.swept options owner element := by
  cases check <;> simp_all [rewrite]

theorem sameButValues_rewrite :
    SameButValues options element.attributes
      (check.rewrite options owner element).attributes := by
  have swept : SameButValues options element.attributes
      (check.swept options owner element).attributes := by
    rw [attributes_swept]
    exact .of_repair element.attributes
  unfold rewrite
  split
  · split
    · refine forall₂_trans (fun _ _ _ => .trans) swept ?_
      apply forall₂_updateFirst Attribute.SameButValue.refl
      intro border named
      apply Attribute.SameButValue.of_judge
      intro rule imageLike found
      rw [Attribute.valueRule?_border named] at found
      rw [← Option.some.inj found]
      cases border.value with
      | none => rfl
      | some value => rfl
    · exact swept
  · exact swept

theorem repair_of_mem_rewrite {attr : Attribute}
    (member : attr ∈ (check.rewrite options owner element).attributes) :
    attr.repair options = attr := by
  have settled : ∀ other ∈ (check.swept options owner element).attributes,
      other.repair options = other := by
    rw [attributes_swept]
    intro other present
    rcases List.mem_map.mp present with ⟨original, _, rfl⟩
    exact original.repair_repair options
  unfold rewrite at member
  split at member
  · split at member
    · rcases mem_of_mem_updateFirst member with old | ⟨border, _, named, rfl⟩
      · exact settled attr old
      · have widened : (widen border).isNamed "border" = true := named
        exact Attribute.repair_border options widened
    · exact settled attr member
  · exact settled attr member

theorem swept_of_settled
    (settled : ∀ attr ∈ element.attributes, attr.repair options = attr) :
    check.swept options owner element = element := by
  have same := attributes_swept check options owner element
  rw [List.map_congr_left settled, List.map_id''] at same
  · cases element
    simp_all [ElementCheck.swept]
  · exact fun _ => rfl

@[simp] theorem swept_rewrite :
    check.swept options owner (check.rewrite options owner element) =
      check.rewrite options owner element :=
  swept_of_settled check options owner _ fun _ member =>
    repair_of_mem_rewrite check options owner element member

end ElementCheck

/-! ## Appended attributes -/

/-- The two rules for ids that the library brings. -/
inductive IdRepair.BuiltIn where
  | copyName
  | none

namespace IdRepair.BuiltIn

def rule : BuiltIn → IdRepair
  | copyName => IdRepair.copyName
  | none => IdRepair.none

def appended (hook : BuiltIn) (options : Options) (element : Element) : Option Attribute :=
  match hook with
  | copyName =>
      if options.xmlOutput && !element.has "id" then
        (nameValue? element).map (Attribute.valued "id")
      else
        Option.none
  | none => Option.none

theorem repair_rule (hook : BuiltIn) (options : Options) (element : Element) :
    hook.rule.repair options element =
      (hook.appended options element).elim element element.push := by
  cases hook with
  | none => rfl
  | copyName =>
      simp only [rule, IdRepair.copyName, appended, Element.has_eq_isSome]
      cases named : nameValue? element with
      | none => simp
      | some name =>
          cases found : element.find? "id" with
          | some id => simp
          | none =>
              have absent : element.has "id" = false := by
                rw [Element.has_eq_isSome, found, Option.isSome_none]
              by_cases output : options.xmlOutput = true
              · simp [output, Element.set, absent]
              · simp [output]

theorem valued_of_appended {hook : BuiltIn} {options : Options} {element : Element}
    {attr : Attribute} (appends : hook.appended options element = some attr) :
    ∃ value, attr = .valued "id" value ∧ element.has "id" = false := by
  cases hook with
  | none => cases appends
  | copyName =>
      simp only [appended] at appends
      split at appends
      next absent =>
        rcases Option.map_eq_some_iff.mp appends with ⟨value, _, rfl⟩
        rw [Bool.and_eq_true, Bool.not_eq_true'] at absent
        exact ⟨value, rfl, absent.2⟩
      next => cases appends

end IdRepair.BuiltIn

/-- The attributes that checks supply where they are absent. -/
inductive Supplied where
  | type
  | alt
  | id

namespace Supplied

def name : Supplied → String
  | type => "type"
  | alt => "alt"
  | id => "id"

def rule : Supplied → AttributeRule
  | type => .plain .type "type" .standard
  | alt => .prose .alt "alt" .standard
  | id => .plain .id "id" .from40 (some .id)

theorem find?_name (supplied : Supplied) :
    AttributeRule.find? supplied.name = some supplied.rule := by
  cases supplied with
  | type => cbv
  | alt => cbv
  | id => cbv

theorem isKnown_name (supplied : Supplied) : AttributeRule.IsKnown supplied.name := by
  rw [AttributeRule.IsKnown, supplied.find?_name, Option.map_some]
  cases supplied <;> rfl

def absence (owner : Owner) : Supplied → Findings
  | type => owner.reportMissing "type"
  | alt => .flag .missingImageAlt ++ owner.reportMissing "alt"
  | id => .narrow .from40

def presence (supplied : Supplied) : Findings := .narrow supplied.rule.versions

variable (supplied : Supplied) (value : String) (options : Options)

theorem repair_valued :
    (Attribute.valued supplied.name value).repair options = .valued supplied.name value := by
  have found : (Attribute.valued supplied.name value).valueRule? = supplied.rule.value := by
    rw [Attribute.valueRule?, Attribute.rule?, Attribute.valued, supplied.find?_name,
      Option.bind_some]
  cases supplied with
  | type => exact Attribute.repair_of_no_valueRule? _ options found
  | alt => exact Attribute.repair_of_no_valueRule? _ options found
  | id => exact Attribute.repair_of_fixed _ options found fun _ => rfl

theorem findings_valued (owner : Owner) :
    (Attribute.valued supplied.name value).findings options owner = supplied.presence := by
  have found : (Attribute.valued supplied.name value).rule? = some supplied.rule := by
    rw [Attribute.rule?, Attribute.valued, supplied.find?_name]
  have titled : (supplied.rule.identity == .title) = false := by
    cases supplied <;> decide
  have foreign : supplied.rule.versions.intersects (.only .xml) = false := by
    cases supplied <;> decide
  simp only [Attribute.findings, found, AttributeRule.findings, AttributeRule.versionFindings,
    titled, foreign, Bool.false_and, Bool.false_eq_true, if_false]
  cases supplied with
  | type => exact Findings.append_empty _
  | alt => exact Findings.append_empty _
  | id => exact Findings.append_empty _

end Supplied

namespace ElementCheck

def supplied? : ElementCheck → Option Supplied
  | style => some .type
  | script => some .type
  | link => some .type
  | image => some .alt
  | anchor => some .id
  | map => some .id
  | _ => none

variable (check : ElementCheck) (options : Options) (hook : IdRepair.BuiltIn) (owner : Owner)
    (element : Element)

/-- The attribute that the check appends to an element whose values are rewritten. -/
def appended : Option Attribute :=
  match check with
  | anchor | map => hook.appended options element
  | _ => check.inserted options (check.sweep options owner element) element

@[simp] theorem has_sweep {name : String} (known : AttributeRule.IsKnown name) :
    (check.sweep options owner element).has name = element.has name :=
  Sweep.has_run known options owner check.skips element.attributes

@[simp] theorem has_rewrite (name : String) :
    (check.rewrite options owner element).has name = element.has name :=
  (sameButValues_rewrite check options owner element).any_isNamed name

theorem supplied_of_appended {attr : Attribute}
    (appends : check.appended options hook owner element = some attr) :
    ∃ supplied value, check.supplied? = some supplied ∧
      attr = .valued supplied.name value ∧ element.has supplied.name = false := by
  have typed := has_sweep check options owner element Supplied.type.isKnown_name
  have described := has_sweep check options owner element Supplied.alt.isKnown_name
  simp only [Supplied.name] at typed described
  cases check with
  | style =>
      simp only [appended, inserted, typed] at appends
      split at appends
      next => cases appends
      next absent =>
        exact ⟨.type, _, rfl, (Option.some.inj appends).symm, eq_false_of_ne_true absent⟩
  | script =>
      simp only [appended, inserted, typed] at appends
      split at appends
      next inferred =>
        rw [Bool.and_eq_true, Bool.not_eq_true'] at inferred
        exact ⟨.type, _, rfl, (Option.some.inj appends).symm, inferred.1⟩
      next => cases appends
  | link =>
      simp only [appended, inserted, typed] at appends
      split at appends
      next inferred =>
        rw [Bool.and_eq_true, Bool.not_eq_true'] at inferred
        exact ⟨.type, _, rfl, (Option.some.inj appends).symm, inferred.2⟩
      next => cases appends
  | image =>
      simp only [appended, inserted, described] at appends
      split at appends
      next => cases appends
      next absent =>
        rcases Option.map_eq_some_iff.mp appends with ⟨value, _, rfl⟩
        exact ⟨.alt, value, rfl, rfl, eq_false_of_ne_true absent⟩
  | anchor =>
      rcases IdRepair.BuiltIn.valued_of_appended appends with ⟨value, rfl, absent⟩
      exact ⟨.id, value, rfl, rfl, absent⟩
  | map =>
      rcases IdRepair.BuiltIn.valued_of_appended appends with ⟨value, rfl, absent⟩
      exact ⟨.id, value, rfl, rfl, absent⟩
  | _ => cases appends

theorem inserted_congr {left right : Sweep}
    (alike : ∀ supplied : Supplied, left.has supplied.name = right.has supplied.name) :
    check.inserted options left element = check.inserted options right element := by
  have typed := alike .type
  have described := alike .alt
  simp only [Supplied.name] at typed described
  cases check <;> simp only [inserted, typed, described]

/-- A check first rewrites values and then appends at most one attribute. -/
theorem repair_eq :
    check.repair options hook.rule owner element =
      (check.appended options hook owner (check.rewrite options owner element)).elim
        (check.rewrite options owner element) (check.rewrite options owner element).push := by
  have seen : ∀ supplied : Supplied,
      (check.sweep options owner element).has supplied.name =
        (check.sweep options owner (check.rewrite options owner element)).has
          supplied.name := by
    intro supplied
    rw [has_sweep _ _ _ _ supplied.isKnown_name, has_sweep _ _ _ _ supplied.isKnown_name,
      has_rewrite]
  have same := fun swept => inserted_congr check options swept seen
  cases check with
  | table => rfl
  | anchor => exact hook.repair_rule options _
  | map => exact hook.repair_rule options _
  | _ =>
      simp only [repair, appended, same, rewrite]
      split
      next nothing => rw [nothing, Option.elim_none]
      next attr something => rw [something, Option.elim_some]

theorem attributes_repair :
    (check.repair options hook.rule owner element).attributes =
      (check.rewrite options owner element).attributes ++
        (check.appended options hook owner (check.rewrite options owner element)).toList := by
  rw [repair_eq]
  cases check.appended options hook owner (check.rewrite options owner element) with
  | none => exact (List.append_nil _).symm
  | some attr => rfl

/-! ## A second repair -/

@[simp] theorem tag_repair :
    (check.repair options hook.rule owner element).tag = element.tag := by
  rw [repair_eq]
  cases check.appended options hook owner (check.rewrite options owner element) with
  | none => exact tag_rewrite check options owner element
  | some attr => exact tag_rewrite check options owner element

theorem repair_of_mem_repair {attr : Attribute}
    (member : attr ∈ (check.repair options hook.rule owner element).attributes) :
    attr.repair options = attr := by
  rw [repair_eq] at member
  cases appends : check.appended options hook owner (check.rewrite options owner element) with
  | none =>
      rw [appends] at member
      exact repair_of_mem_rewrite check options owner element member
  | some other =>
      rw [appends] at member
      rcases List.mem_append.mp member with rewritten | last
      · exact repair_of_mem_rewrite check options owner element rewritten
      · rcases supplied_of_appended check options hook owner _ appends with
          ⟨supplied, value, _, rfl, _⟩
        rw [List.mem_singleton.mp last]
        exact supplied.repair_valued value options

@[simp] theorem swept_repair :
    check.swept options owner (check.repair options hook.rule owner element) =
      check.repair options hook.rule owner element :=
  swept_of_settled check options owner _ fun _ member =>
    repair_of_mem_repair check options hook owner element member

theorem rewrite_repair :
    check.rewrite options owner (check.repair options hook.rule owner element) =
      check.repair options hook.rule owner element := by
  by_cases tabled : check = .table
  · subst tabled
    simp only [rewrite, swept_repair]
    split
    next output =>
      have once : table.repair options hook.rule owner element =
          (table.swept options owner element).modify "border" widen := by
        simp only [repair, output, if_true]
        rfl
      rw [once, Element.modify, Element.modify]
      congr 1
      apply updateFirst_updateFirst
      · exact fun _ => rfl
      · exact fun _ => rfl
    next => rfl
  · rw [rewrite_eq_swept check options owner _ tabled, swept_repair]

theorem appended_repair :
    check.appended options hook owner (check.repair options hook.rule owner element) =
      none := by
  rw [repair_eq]
  cases appends : check.appended options hook owner (check.rewrite options owner element) with
  | none => exact appends
  | some attr =>
      rcases supplied_of_appended check options hook owner _ appends with
        ⟨supplied, value, supplies, rfl, _⟩
      rw [Option.elim_some, Option.eq_none_iff_forall_ne_some]
      intro other again
      rcases supplied_of_appended check options hook owner _ again with
        ⟨supplied', _, supplies', _, absent⟩
      rw [← Option.some.inj (supplies.symm.trans supplies')] at absent
      simp [Attribute.isNamed, Attribute.valued] at absent

theorem repair_repair :
    check.repair options hook.rule owner (check.repair options hook.rule owner element) =
      check.repair options hook.rule owner element := by
  rw [repair_eq check options hook owner (check.repair options hook.rule owner element),
    rewrite_repair, appended_repair, Option.elim_none]

end ElementCheck

end HtmlConformance
