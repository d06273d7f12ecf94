import HtmlConformance.Proofs.Verdict

namespace HtmlConformance

/-! What the check of an element leaves of the versions. Standards and vendors never stand
together in it, unless nothing is ruled out at all, and a place that only vendors have leaves
nothing. -/

/-! ## Unmixed versions -/

namespace VersionSet

/-- Nothing is ruled out yet, or all that is left is of the standards, or it is of vendors. -/
def Unmixed (versions : VersionSet) : Prop :=
  versions = .everything ∨ versions.isSubset standard = true ∨
    versions.isSubset proprietary = true

instance (versions : VersionSet) : Decidable versions.Unmixed :=
  inferInstanceAs (Decidable (_ ∨ _ ∨ _))

theorem Unmixed.inter {left right : VersionSet} (unmixedLeft : left.Unmixed)
    (unmixedRight : right.Unmixed) : (left ∩ right).Unmixed := by
  rcases unmixedLeft with rfl | standard | vendor
  · rwa [everything_inter]
  · exact .inr (.inl (FlagSet.isSubset_inter_left standard right))
  · exact .inr (.inr (FlagSet.isSubset_inter_left vendor right))

/-- The marks for XML and for malformed markup belong neither to the standards nor to the
vendors. -/
theorem Unmixed.eq_everything {versions : VersionSet} (unmixed : versions.Unmixed)
    {version : Version} (mark : version = .xml ∨ version = .malformed)
    (left : versions.contains version = true) : versions = .everything := by
  rcases unmixed with all | standard | vendor
  · exact all
  · have listed := FlagSet.isSubset_iff.mp standard version left
    rcases mark with rfl | rfl <;> exact absurd listed (by decide)
  · have listed := FlagSet.isSubset_iff.mp vendor version left
    rcases mark with rfl | rfl <;> exact absurd listed (by decide)

theorem inter_eq_empty {left right : VersionSet}
    (standard : left.isSubset VersionSet.standard = true)
    (vendor : right.isSubset VersionSet.proprietary = true) : left ∩ right = ∅ := by
  have apart : VersionSet.standard ∩ VersionSet.proprietary = ∅ := by decide
  apply FlagSet.eq_empty_of_isSubset
  rw [← apart, FlagSet.isSubset_iff]
  intro version member
  rw [FlagSet.contains_inter, Bool.and_eq_true] at member ⊢
  exact ⟨FlagSet.isSubset_iff.mp standard version member.1,
    FlagSet.isSubset_iff.mp vendor version member.2⟩

end VersionSet

namespace Findings

theorem isSubset_joinAll {list : List Findings} {findings : Findings}
    (member : findings ∈ list) {bound : VersionSet}
    (within : findings.allowed.isSubset bound = true) :
    (joinAll list).allowed.isSubset bound = true := by
  rw [FlagSet.isSubset_iff] at within ⊢
  intro version left
  rw [contains_allowed_joinAll, List.all_eq_true] at left
  exact within version (left findings member)

end Findings

/-! ## Single attributes -/

section

variable (options : Options) (owner : Owner) {attr : Attribute}

namespace AttributeRule

variable {rule : AttributeRule}

theorem isSubset_versionFindings (standard : rule.versions.isSubset VersionSet.standard = true) :
    (rule.versionFindings options owner attr).allowed.isSubset VersionSet.standard = true := by
  have legal : rule.versions.contains .xml = false := by
    rw [← Bool.not_eq_true]
    intro marked
    exact absurd (FlagSet.isSubset_iff.mp standard .xml marked) (by decide)
  unfold versionFindings
  rw [FlagSet.intersects_only, legal]
  split
  · decide
  · exact standard

end AttributeRule

theorem ValueRule.judge_of_raised (rule : ValueRule) {diagnostic : Diagnostic}
    (raised : diagnostic ∈ (rule.findings owner attr).diagnostics)
    (kind : diagnostic.kind = .proprietaryAttributeValue) :
    rule.judge owner.isImageLike attr.value = .proprietary := by
  unfold findings at raised
  split at raised
  · cases raised
  · cases List.mem_singleton.mp raised
    cases kind
  · cases List.mem_singleton.mp raised
    cases kind
  next vendor => exact vendor

/-- Attributes that can have values of vendors are of the standards themselves, so with such a
value no version is left. -/
theorem AttributeRule.allowed_of_raised {rule : AttributeRule} (listed : rule ∈ table)
    {diagnostic : Diagnostic}
    (raised : diagnostic ∈ (rule.findings options owner attr).diagnostics)
    (kind : diagnostic.kind = .proprietaryAttributeValue) :
    (rule.findings options owner attr).allowed = ∅ := by
  have rows : (table.all fun rule =>
      !(rule.value == some .valign || rule.value == some .align) ||
        rule.versions.isSubset VersionSet.standard) = true := by cbv
  have row := List.all_eq_true.mp rows rule listed
  rw [findings, Findings.diagnostics_append, List.mem_append] at raised
  rw [findings, Findings.allowed_append]
  rcases raised with versioned | valued
  · have only := (within_versionFindings options owner attr listed).kind_mem versioned
    rw [kind] at only
    exact absurd only (by decide)
  · cases value : rule.value with
    | none =>
        rw [value] at valued
        cases valued
    | some valueRule =>
        simp only [value] at valued ⊢
        have vendor := valueRule.judge_of_raised owner valued kind
        have placing := ((valueRule.judge_eq_proprietary _ _).mp vendor).1
        have standard : rule.versions.isSubset VersionSet.standard = true := by
          rcases placing with rfl | ⟨rfl, _⟩ <;> simpa [value] using row
        apply VersionSet.inter_eq_empty
        · exact isSubset_versionFindings options owner standard
        · rw [ValueRule.findings, vendor]
          exact FlagSet.isSubset_inter_left (by decide) _

namespace Attribute

theorem isSubset_findings {rule : AttributeRule} (found : attr.rule? = some rule)
    (standard : rule.versions.isSubset VersionSet.standard = true) :
    (attr.findings options owner).allowed.isSubset VersionSet.standard = true := by
  simp only [findings, found, AttributeRule.findings, Findings.allowed_append]
  exact FlagSet.isSubset_inter_left
    (AttributeRule.isSubset_versionFindings options owner standard) _

theorem allowed_of_raised {diagnostic : Diagnostic}
    (raised : diagnostic ∈ (attr.findings options owner).diagnostics)
    (kind : diagnostic.kind = .proprietaryAttributeValue) :
    (attr.findings options owner).allowed = ∅ := by
  unfold findings at raised ⊢
  cases found : attr.rule? with
  | none =>
      simp only [found] at raised
      split at raised
      · cases raised
      · cases List.mem_singleton.mp raised
        cases kind
  | some rule =>
      simp only [found] at raised ⊢
      exact AttributeRule.allowed_of_raised options owner (AttributeRule.mem_of_find? found)
        raised kind

end Attribute

end

/-! ## Elements -/

/-- Whether a diagnostic complains of a value that only vendors have, on an attribute that
places a box. -/
def Diagnostic.isVendorPlace (diagnostic : Diagnostic) : Bool :=
  diagnostic.kind == .proprietaryAttributeValue &&
    diagnostic.attributeName.any fun name => Text.alike name "align" || Text.alike name "valign"

section

variable (options : Options) (hook : IdRepair.BuiltIn) (owner : Owner) (element : Element)

namespace ElementCheck

variable (check : ElementCheck)

/-- An attribute of the standards leaves nothing else, if the check does not skip it. -/
theorem isSubset_sweep (unskipped : check.skips = none) {name : String}
    (standard : ((AttributeRule.find? name).any fun rule =>
      rule.versions.isSubset VersionSet.standard) = true)
    (present : element.has name = true) :
    (check.sweep options owner element).findings.allowed.isSubset VersionSet.standard = true := by
  rcases List.any_eq_true.mp present with ⟨attr, member, named⟩
  rcases (Option.any_eq_true _ _).mp standard with ⟨rule, found, within⟩
  have here : attr.rule? = some rule := (AttributeRule.find?_congr named).trans found
  apply Findings.isSubset_joinAll (List.mem_map_of_mem member)
  rw [unskipped]
  exact attr.isSubset_findings options owner here within

theorem allowed_of_raised_sweep {diagnostic : Diagnostic}
    (raised : diagnostic ∈ (check.sweep options owner element).findings.diagnostics)
    (kind : diagnostic.kind = .proprietaryAttributeValue) :
    (check.sweep options owner element).findings.allowed = ∅ := by
  simp only [sweep, Sweep.run, Findings.diagnostics_joinAll, List.mem_flatMap] at raised
  rcases raised with ⟨findings, member, here⟩
  have nothing : findings.allowed = ∅ := by
    rcases List.mem_map.mp member with ⟨attr, _, rfl⟩
    split at here
    · cases here
    next judged =>
      rw [if_neg judged]
      exact attr.allowed_of_raised options owner here kind
  apply FlagSet.eq_empty_of_isSubset
  apply Findings.isSubset_joinAll member
  rw [nothing]
  exact FlagSet.empty_isSubset ∅

/-- Only the size of a box rules out a single version of the standards. -/
theorem unmixed_reach {sized : Bool} (unsized : check.skips = none → sized = false) :
    ∀ versions ∈ (check.reach sized).narrowings, versions.Unmixed := by
  have shared : ((Repeats.reach ++ Attribute.reach).narrowings.all fun versions =>
      decide versions.Unmixed) = true := by cbv
  have own : ((check.ruleReach false).narrowings.all fun versions =>
      decide versions.Unmixed) = true := by cases check <;> decide
  have sizeless : check.ruleReach sized = check.ruleReach false := by
    cases check with
    | caption => rfl
    | _ => rw [unsized rfl]
  intro versions listed
  rcases List.mem_append.mp listed with common | rule
  · exact of_decide_eq_true (List.all_eq_true.mp shared versions common)
  · rw [sizeless] at rule
    exact of_decide_eq_true (List.all_eq_true.mp own versions rule)

theorem unmixed_findings :
    (check.findings options hook.rule owner element).allowed.Unmixed := by
  -- The size of a box takes a single version away, from what the attribute that gives the size
  -- has cut down to the standards before.
  by_cases sized : check.skips = none ∧ element.isSized = true
  · have standard : (check.sweep options owner element).findings.allowed.isSubset
        VersionSet.standard = true := by
      rcases (Bool.or_eq_true _ _).mp sized.2 with wide | high
      · exact isSubset_sweep options owner element check sized.1 (by cbv) wide
      · exact isSubset_sweep options owner element check sized.1 (by cbv) high
    exact .inr (.inl (FlagSet.isSubset_inter_left
      (FlagSet.isSubset_inter_right standard _) _))
  · have unsized : check.skips = none → element.isSized = false := fun unskipped =>
      eq_false_of_ne_true fun both => sized ⟨unskipped, both⟩
    exact (check.within_findings options hook owner element).allowed VersionSet.Unmixed
      (.inl rfl) (check.unmixed_reach unsized) .inter

/-- The check of a line complains of its `src`, and of nothing else. -/
theorem isNamed_of_raised_line {sweep : Sweep} {swept : Element} {diagnostic : Diagnostic}
    (raised : diagnostic ∈
      (line.ruleFindings options hook.rule owner sweep swept).diagnostics) :
    ∃ name, diagnostic.attributeName = some name ∧ Text.alike name "src" = true := by
  simp only [ruleFindings] at raised
  split at raised
  · split at raised
    · cases raised
    next source found =>
      rw [List.mem_singleton.mp raised]
      exact ⟨source.name, rfl, Element.isNamed_of_find? found⟩
  · cases raised

theorem allowed_of_raised {diagnostic : Diagnostic}
    (raised : diagnostic ∈ (check.findings options hook.rule owner element).diagnostics)
    (placed : diagnostic.isVendorPlace = true) :
    (check.findings options hook.rule owner element).allowed = ∅ := by
  rw [Diagnostic.isVendorPlace, Bool.and_eq_true, beq_iff_eq] at placed
  rcases placed with ⟨kind, named⟩
  rw [findings, Findings.diagnostics_append, Findings.diagnostics_append, List.mem_append,
    List.mem_append] at raised
  rcases raised with (repeated | swept) | ruled
  · have only := (Repeats.within_findings owner element.attributes).kind_mem repeated
    rw [kind] at only
    exact absurd only (by decide)
  · have nothing := allowed_of_raised_sweep options owner element check swept kind
    rw [findings, Findings.allowed_append, Findings.allowed_append, nothing,
      FlagSet.inter_empty, FlagSet.empty_inter]
  · have only := (within_ruleFindings check options hook owner _ _).kind_mem ruled
    rw [kind] at only
    cases check with
    | line =>
        rcases isNamed_of_raised_line options hook owner ruled with ⟨name, here, source⟩
        rw [here, Option.any_some, Bool.or_eq_true] at named
        have across : Text.alike "src" "align" = false := by cbv
        have upright : Text.alike "src" "valign" = false := by cbv
        rw [Text.alike_comm] at source
        rcases named with placed | placed
        · exact absurd (across.symm.trans (Text.alike_trans source placed)) (by decide)
        · exact absurd (upright.symm.trans (Text.alike_trans source placed)) (by decide)
    | _ => exact absurd only (by simp [ruleReach, IdRepair.BuiltIn.reach])

end ElementCheck

namespace Element

theorem unmixed_findings : (element.findings options hook.rule).allowed.Unmixed := by
  rw [findings, Findings.allowed_append,
    (within_warned element.tag).allowed_eq_everything rfl, VersionSet.everything_inter]
  exact element.check.unmixed_findings options hook _ element

theorem allowed_of_raised {diagnostic : Diagnostic}
    (raised : diagnostic ∈ (element.findings options hook.rule).diagnostics)
    (placed : diagnostic.isVendorPlace = true) :
    (element.findings options hook.rule).allowed = ∅ := by
  rw [findings, Findings.diagnostics_append, List.mem_append] at raised
  rcases raised with warned | checked
  · cases (within_warned element.tag).kind_mem warned
  · rw [findings, Findings.allowed_append,
      element.check.allowed_of_raised options hook _ element checked placed,
      FlagSet.inter_empty]

end Element

end

end HtmlConformance
