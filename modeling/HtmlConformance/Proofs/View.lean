import HtmlConformance.Proofs.Validation

namespace HtmlConformance

/-! What a reader sees of a pass: its verdict, and its diagnostics through a view, which shows
each of them in some form or leaves it out. Two passes are compared by what is seen of them. -/

/-- How a reader sees diagnostics: each in some form, or not at all. -/
abbrev View := Diagnostic → Option Diagnostic

namespace View

def whole : View := some

def mapped (change : Diagnostic → Diagnostic) : View := some ∘ change

def except (kinds : List DiagnosticKind) : View := fun diagnostic =>
  if kinds.contains diagnostic.kind then none else some diagnostic

def Hides (view : View) (kind : DiagnosticKind) : Prop :=
  ∀ diagnostic, diagnostic.kind = kind → view diagnostic = none

theorem hides_except {kinds : List DiagnosticKind} {kind : DiagnosticKind}
    (listed : kind ∈ kinds) : (except kinds).Hides kind := by
  rintro diagnostic rfl
  exact if_pos (List.contains_iff_mem.mpr listed)

theorem filterMap_whole (diagnostics : List Diagnostic) :
    diagnostics.filterMap whole = diagnostics :=
  List.filterMap_some

theorem filterMap_mapped (change : Diagnostic → Diagnostic) (diagnostics : List Diagnostic) :
    diagnostics.filterMap (mapped change) = diagnostics.map change :=
  congrFun List.filterMap_eq_map diagnostics

/-- Lists that look the same are related entry by entry, if entries that look the same are. -/
theorem forall₂_of_mapped {change : Diagnostic → Diagnostic}
    {related : Diagnostic → Diagnostic → Prop}
    (implies : ∀ {left right}, change left = change right → related left right)
    {left right : List Diagnostic}
    (seen : left.filterMap (mapped change) = right.filterMap (mapped change)) :
    List.Forall₂ related left right := by
  rw [filterMap_mapped, filterMap_mapped, map_eq_map_iff_forall₂] at seen
  exact seen.imp fun _ _ => implies

theorem filterMap_except (kinds : List DiagnosticKind) (diagnostics : List Diagnostic) :
    diagnostics.filterMap (except kinds) =
      diagnostics.filter fun diagnostic => !kinds.contains diagnostic.kind := by
  induction diagnostics with
  | nil => rfl
  | cons diagnostic rest induction =>
      cases listed : kinds.contains diagnostic.kind <;> simp_all [except]

end View

/-! ## Findings through a view -/

namespace Findings

/-- The findings as a reader sees them; warnings go to the operator only. -/
def through (view : View) (findings : Findings) : Findings where
  allowed := findings.allowed
  defects := findings.defects
  xhtml := findings.xhtml
  diagnostics := findings.diagnostics.filterMap view

section

variable (view : View) (findings : Findings)

@[simp] theorem allowed_through : (findings.through view).allowed = findings.allowed := rfl
@[simp] theorem defects_through : (findings.through view).defects = findings.defects := rfl
@[simp] theorem xhtml_through : (findings.through view).xhtml = findings.xhtml := rfl
@[simp] theorem diagnostics_through :
    (findings.through view).diagnostics = findings.diagnostics.filterMap view := rfl

end

variable {view other : View}

@[simp] theorem through_empty : (∅ : Findings).through view = ∅ := rfl
@[simp] theorem through_narrow (versions : VersionSet) :
    (narrow versions).through view = narrow versions := rfl
@[simp] theorem through_flag (defect : Defect) : (flag defect).through view = flag defect := rfl
@[simp] theorem through_namespaced : namespaced.through view = namespaced := rfl
@[simp] theorem through_warn (warning : Warning) : (warn warning).through view = ∅ := rfl

@[simp] theorem through_append (first second : Findings) :
    (first ++ second).through view = first.through view ++ second.through view :=
  ext rfl rfl rfl List.filterMap_append rfl

theorem through_ite (condition : Prop) [Decidable condition] (first second : Findings) :
    (if condition then first else second).through view =
      if condition then first.through view else second.through view :=
  apply_ite (through view) condition first second

theorem through_raise_congr {first second : Diagnostic} (alike : view first = other second) :
    (raise first).through view = (raise second).through other := by
  simp only [through, raise, List.filterMap_cons, alike]
  rfl

theorem through_raise_of_none {diagnostic : Diagnostic} (hidden : view diagnostic = Option.none) :
    (raise diagnostic).through view = ∅ := by
  simp only [through, raise, List.filterMap_cons, hidden]
  rfl

/-- Findings among which there are none of some kinds are seen whole when these are left out. -/
theorem Within.through_except {reach : Reach} {findings : Findings}
    (within : findings.Within reach) {kinds : List DiagnosticKind}
    (apart : ∀ kind ∈ reach.kinds, kind ∉ kinds) :
    findings.through (.except kinds) = findings.through .whole := by
  refine ext rfl rfl rfl (List.filterMap_congr ?_) rfl
  intro diagnostic raised
  have unlisted := apart _ (within.kind_mem raised)
  simp [View.except, View.whole, unlisted]

theorem through_joinAll_map {α β : Type} {before : α → Findings} {after : β → Findings}
    {left : List α} {right : List β}
    (alike : List.Forall₂ (fun first second =>
      (before first).through view = (after second).through other) left right) :
    (joinAll (left.map before)).through view = (joinAll (right.map after)).through other := by
  induction alike with
  | nil => rfl
  | cons head _ induction =>
      rw [List.map_cons, List.map_cons, joinAll_cons, joinAll_cons, through_append, through_append,
        head, induction]

end Findings

theorem Element.findings_through (view : View) (options : Options) (hook : IdRepair)
    (element : Element) :
    (element.findings options hook).through view =
      (element.check.findings options hook (.ofTag element.tag) element).through view := by
  simp only [findings, Findings.through_append, Findings.through_ite, Findings.through_warn,
    Findings.through_empty, ite_self, Findings.empty_append]

/-! ## Passes through a view -/

/-- The passes come to the same conclusion about the document. -/
structure Pass.SameVerdict (first second : Pass) : Prop where
  versions : first.state.versions = second.state.versions
  defects : first.state.defects = second.state.defects
  isXhtml : first.state.isXhtml = second.state.isXhtml

namespace Arena

variable {view other : View} {left right : Options} {hook : IdRepair} {nodes others : List Node}

/-- What is seen alike of elements, one by one, is seen alike of passes over documents. -/
theorem seen_firstPass
    (alike : List.Forall₂ (fun first second =>
      (first.findings left hook).through view = (second.findings right hook).through other)
      (Node.elementsAll nodes) (Node.elementsAll others)) :
    (firstPass left hook nodes).2.SameVerdict (firstPass right hook others).2 ∧
      (firstPass left hook nodes).2.diagnostics.toList.filterMap view =
        (firstPass right hook others).2.diagnostics.toList.filterMap other := by
  have seen : (Node.findingsAll left hook nodes).through view =
      (Node.findingsAll right hook others).through other :=
    Findings.through_joinAll_map alike
  rw [firstPass_snd, firstPass_snd]
  refine ⟨⟨?_, ?_, ?_⟩, ?_⟩
  · rw [Pass.versions_absorb_start, Pass.versions_absorb_start]
    simpa only [Findings.allowed_through] using congrArg Findings.allowed seen
  · rw [Pass.defects_absorb_start, Pass.defects_absorb_start]
    simpa only [Findings.defects_through] using congrArg Findings.defects seen
  · rw [Pass.isXhtml_absorb_start, Pass.isXhtml_absorb_start]
    simpa only [Findings.xhtml_through] using congrArg Findings.xhtml seen
  · rw [Pass.diagnostics_absorb_start, Pass.diagnostics_absorb_start]
    simpa only [Findings.diagnostics_through] using congrArg Findings.diagnostics seen

theorem toNodes_firstPass (options : Options) (hook : IdRepair) (nodes : List Node) :
    (firstPass options hook nodes).1.toNodes =
      Node.mapElementsAll (fun element => element.repair options hook) nodes :=
  (represents_firstPass options hook nodes).toNodes_eq

end Arena

end HtmlConformance
