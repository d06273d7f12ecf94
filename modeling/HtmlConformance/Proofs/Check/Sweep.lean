import HtmlConformance.Proofs.Check.Attribute

namespace HtmlConformance

/-! The checks of an attribute list: how their findings depend on the list when values are
rewritten and when an attribute with a new name is appended, and what they can find at all. -/

variable {options : Options} {before after : List Attribute}

/-! ## Lists that differ in values -/

/-- Attribute lists that differ at most in values, which the checks judge alike. -/
abbrev SameButValues (options : Options) (before after : List Attribute) : Prop :=
  List.Forall₂ (Attribute.SameButValue options) before after

namespace SameButValues

theorem of_repair (attributes : List Attribute) :
    SameButValues options attributes
      (attributes.map fun attr => attr.repair options) := by
  rw [SameButValues, List.forall₂_map_right_iff]
  exact List.forall₂_same.mpr fun attr _ => .of_repair attr

theorem any_isNamed (same : SameButValues options before after) (name : String) :
    (after.any fun attr => attr.isNamed name) = before.any fun attr => attr.isNamed name := by
  induction same with
  | nil => rfl
  | cons head _ induction => rw [List.any_cons, List.any_cons, head.isNamed, induction]

theorem first?_eq (same : SameButValues options before after) (name : String) :
    (Repeats.first? name after).map Attribute.name =
      (Repeats.first? name before).map Attribute.name := by
  induction same with
  | nil => rfl
  | cons head _ induction =>
      rw [Repeats.first?, Repeats.first?, List.find?_cons, List.find?_cons, head.isNamed,
        head.isTemplated]
      split
      · rw [Option.map_some, Option.map_some, head.name]
      · exact induction

theorem headFindings_withoutValue (same : SameButValues options before after)
    (owner : Owner) :
    (Repeats.headFindings owner after).mapDiagnostics .withoutValue =
      (Repeats.headFindings owner before).mapDiagnostics .withoutValue := by
  cases same with
  | nil => rfl
  | @cons first second restBefore restAfter head tail =>
      have names := first?_eq tail first.name
      simp only [Repeats.headFindings, head.name]
      cases foundBefore : Repeats.first? first.name restBefore <;>
        cases foundAfter : Repeats.first? first.name restAfter <;>
        simp only [foundBefore, foundAfter, Option.map_some, Option.map_none,
          Option.some.injEq, reduceCtorEq] at names
      · rfl
      · exact owner.report_withoutValue names _

theorem repeats_withoutValue (same : SameButValues options before after) (owner : Owner) :
    (Repeats.findings owner after).mapDiagnostics .withoutValue =
      (Repeats.findings owner before).mapDiagnostics .withoutValue := by
  induction same with
  | nil => rfl
  | cons head tail induction =>
      have first := headFindings_withoutValue (.cons head tail) owner
      simp only [Repeats.findings, Findings.mapDiagnostics_append, head.isTemplated, induction]
      split
      · rfl
      · rw [first]

theorem sweep_withoutValue (same : SameButValues options before after) (owner : Owner)
    (skip : Option String) :
    (Sweep.run options owner skip after).findings.mapDiagnostics .withoutValue =
      (Sweep.run options owner skip before).findings.mapDiagnostics .withoutValue := by
  simp only [Sweep.run]
  induction same with
  | nil => rfl
  | @cons first second _ _ head _ induction =>
      have resolved : Sweep.resolvesTo second = Sweep.resolvesTo first := by
        funext name
        rw [Sweep.resolvesTo, head.rule?, Sweep.resolvesTo]
      simp only [List.map_cons, Findings.joinAll_cons, Findings.mapDiagnostics_append,
        resolved, induction]
      split
      · rfl
      · rw [head.findings owner]

end SameButValues

/-! ## Appending an attribute -/

section

variable {attr : Attribute}
    (fresh : ∀ other ∈ before, other.isNamed attr.name = false)
include fresh

theorem Repeats.findings_append_fresh (owner : Owner) :
    findings owner (before ++ [attr]) = findings owner before := by
  induction before with
  | nil => simp [findings, headFindings, first?]
  | cons head tail induction =>
      have differs : attr.isNamed head.name = false := by
        rw [Attribute.isNamed, Text.alike_comm]
        exact fresh head List.mem_cons_self
      have later := induction fun other member => fresh other (List.mem_cons_of_mem head member)
      have unseen : first? head.name (tail ++ [attr]) = first? head.name tail := by
        simp [first?, List.find?_append, differs]
      simp only [List.cons_append, findings, headFindings, unseen, later]

end

@[simp] theorem Sweep.findings_append (options : Options) (owner : Owner)
    (skip : Option String) (first second : List Attribute) :
    (Sweep.run options owner skip (first ++ second)).findings =
      (Sweep.run options owner skip first).findings ++
        (Sweep.run options owner skip second).findings := by
  simp [Sweep.run]

/-! ## What the checks of a list can find -/

theorem Owner.within_report {reach : Findings.Reach} {kind : DiagnosticKind} (owner : Owner)
    (attr : Attribute) (listed : kind ∈ reach.kinds) : (owner.report kind attr).Within reach :=
  .raise listed

def Repeats.reach : Findings.Reach where
  kinds := [.repeatedAttribute]

def ValueRule.reach : Findings.Reach where
  narrowings := [.proprietary]
  kinds := [.missingAttributeValue, .badAttributeValue, .proprietaryAttributeValue]

/-- The reach of a look at the versions of an attribute; those of XML never narrow them. -/
def AttributeRule.reach : Findings.Reach where
  narrowings := .standard :: (table.filter fun rule =>
    !rule.versions.intersects (.only .xml)).map AttributeRule.versions
  kinds := [.xmlAttributeMisuse]

def Attribute.reach : Findings.Reach :=
  AttributeRule.reach ++ ValueRule.reach ++ { kinds := [.unknownAttribute] }

section

variable (options : Options) (owner : Owner) (attr : Attribute)

theorem Repeats.within_headFindings (attributes : List Attribute) :
    (headFindings owner attributes).Within reach := by
  cases attributes with
  | nil => exact .empty
  | cons attr later =>
      simp only [headFindings]
      split
      · exact .empty
      · exact owner.within_report _ List.mem_cons_self

theorem Repeats.within_findings (attributes : List Attribute) :
    (findings owner attributes).Within reach := by
  induction attributes with
  | nil => exact .empty
  | cons attr later induction =>
      exact .append (.ite .empty (within_headFindings owner _)) induction

theorem ValueRule.within_findings (rule : ValueRule) :
    (rule.findings owner attr).Within reach := by
  unfold findings
  split
  · exact .empty
  · exact owner.within_report attr (by decide)
  · exact owner.within_report attr (by decide)
  · exact .append (.narrow List.mem_cons_self) (owner.within_report attr (by decide))

theorem AttributeRule.within_versionFindings {rule : AttributeRule} (listed : rule ∈ table) :
    (rule.versionFindings options owner attr).Within reach := by
  unfold versionFindings
  split
  · exact .narrow List.mem_cons_self
  · split
    · exact .ite .empty (owner.within_report attr List.mem_cons_self)
    next domestic =>
      apply Findings.Within.narrow
      apply List.mem_cons_of_mem
      apply List.mem_map_of_mem
      rw [List.mem_filter, eq_false_of_ne_true domestic]
      exact ⟨listed, rfl⟩

theorem Attribute.within_findings : (attr.findings options owner).Within reach := by
  unfold findings
  split
  next rule found =>
    apply Findings.Within.ofLeft
    apply Findings.Within.join
    · exact AttributeRule.within_versionFindings options owner attr
        (AttributeRule.mem_of_find? found)
    · split
      · exact .empty
      · exact ValueRule.within_findings owner attr _
  · exact .ite .empty (owner.within_report attr (by decide))

theorem Sweep.within_findings (skip : Option String) (attributes : List Attribute) :
    (run options owner skip attributes).findings.Within Attribute.reach := by
  apply Findings.Within.joinAll
  intro findings member
  rcases List.mem_map.mp member with ⟨attr, _, rfl⟩
  exact .ite .empty (attr.within_findings options owner)

end

end HtmlConformance
