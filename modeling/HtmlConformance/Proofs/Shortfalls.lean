import HtmlConformance.Proofs.Rule.Element
import HtmlConformance.Proofs.Validation
import HtmlConformance.Report

namespace HtmlConformance

/-! The accessibility shortfalls of a document: which elements a pass puts them down to, and
that neither the pass nor the report after it tells one twice. -/

/-! ## Elements that fall short -/

/-- Whether the element is one on account of which the document has the defect. -/
def Element.fallsShort (element : Element) (options : Options) : Defect → Bool
  | .missingSummary =>
      element.isTagged "table" && !element.has "summary" &&
        !(options.doctype == some .html20 || options.doctype == some .html32)
  | .missingImageAlt => element.isTagged "img" && !element.has "alt"
  | .missingImageMap => element.isTagged "img" && element.has "ismap" && !element.has "usemap"
  | .missingLinkAlt => element.isTagged "area" && !element.has "alt"

def Element.isNamespaced (element : Element) : Bool :=
  element.isTagged "html" && element.has "xmlns"

theorem Element.hasDefect_check (element : Element) (options : Options) (defect : Defect) :
    element.check.hasDefect options element defect = element.fallsShort options defect := by
  cases defect with
  | missingSummary =>
      rw [fallsShort, ← element.check_beq_table, Bool.and_assoc]
      cases element.check <;> rfl
  | missingImageAlt =>
      rw [fallsShort, ← element.check_beq_image]
      cases element.check <;> rfl
  | missingImageMap =>
      rw [fallsShort, ← element.check_beq_image, Bool.and_assoc]
      cases element.check <;> rfl
  | missingLinkAlt =>
      rw [fallsShort, ← element.check_beq_area]
      cases element.check <;> rfl

/-! ## What is told -/

/-- The kinds of diagnostics that a report adds to those of the pass. -/
def Report.kinds : List DiagnosticKind := notes.map fun note => note.2.1

theorem Report.count_diagnostics (report : Report) (kind : DiagnosticKind) :
    (report.diagnostics.map Diagnostic.kind).count kind =
      notes.countP fun note => note.2.1 == kind && report.defects.contains note.1 := by
  rw [diagnostics, List.map_map, List.count, List.countP_map, List.countP_filter]
  rfl

theorem Element.countOf_eq_zero_of_report (element : Element) (options : Options)
    (hook : IdRepair.BuiltIn) {kind : DiagnosticKind} (reported : kind ∈ Report.kinds) :
    (element.findings options hook.rule).countOf kind = 0 := by
  apply (element.within_findings options hook).countOf_eq_zero
  generalize element.check = check, (element.has "width" || element.has "height") = sized
  revert reported kind sized
  cases check <;> decide

namespace Node

variable (options : Options) (hook : IdRepair.BuiltIn) (nodes : List Node)

theorem countOf_findingsAll_of_report {kind : DiagnosticKind} (reported : kind ∈ Report.kinds) :
    (findingsAll options hook.rule nodes).countOf kind = 0 := by
  unfold findingsAll
  induction elementsAll nodes with
  | nil => rfl
  | cons element rest induction =>
      simp [element.countOf_eq_zero_of_report options hook reported, induction]

theorem countOf_findingsAll :
    (findingsAll options hook.rule nodes).countOf .missingImagemap =
      (elementsAll nodes).countP fun element => element.fallsShort options .missingImageMap := by
  unfold findingsAll
  induction elementsAll nodes with
  | nil => rfl
  | cons element rest induction =>
      rw [List.map_cons, Findings.joinAll_cons, Findings.countOf_append, induction,
        element.countOf_findings, element.hasDefect_check, List.countP_cons, Nat.add_comm]
      cases element.fallsShort options .missingImageMap <;> rfl

end Node

/-! ## Documents -/

namespace Arena

/-- After a pass over a document a defect is on record exactly if some element falls short in
that way, and the document counts as XHTML exactly if some `html` has a namespace. The pass and
the report after it together tell each defect of the whole document once, and a missing map
once for each image that lacks it. -/
theorem shortfalls_told_once (options : Options) (hook : IdRepair.BuiltIn) (nodes : List Node) :
    let pass := (firstPass options hook.rule nodes).2
    let told := (pass.diagnostics.toList ++ (Report.ofState pass.state).diagnostics).map
      Diagnostic.kind
    (∀ defect, pass.state.defects.contains defect = true ↔
        ∃ element ∈ Node.elementsAll nodes, element.fallsShort options defect = true) ∧
      (pass.state.isXhtml = true ↔
        ∃ element ∈ Node.elementsAll nodes, element.isNamespaced = true) ∧
      told.count .missingSummary =
        (if pass.state.defects.contains .missingSummary then 1 else 0) ∧
      told.count .missingImageAlt =
        (if pass.state.defects.contains .missingImageAlt then 1 else 0) ∧
      told.count .missingLinkAlt =
        (if pass.state.defects.contains .missingLinkAlt then 1 else 0) ∧
      told.count .missingImagemap =
        (Node.elementsAll nodes).countP fun element =>
          element.fallsShort options .missingImageMap := by
  intro pass told
  have found : pass = (Pass.start options).absorb (Node.findingsAll options hook.rule nodes) :=
    firstPass_snd options hook.rule nodes
  have counted (kind : DiagnosticKind) :
      told.count kind = (Node.findingsAll options hook.rule nodes).countOf kind +
        Report.notes.countP fun note =>
          note.2.1 == kind && pass.state.defects.contains note.1 := by
    have report := (Report.ofState pass.state).count_diagnostics kind
    simp only [told, List.map_append, List.count_append, report]
    rw [found, Pass.diagnostics_absorb_start]
    rfl
  have silent {kind : DiagnosticKind} (reported : kind ∈ Report.kinds) :=
    Node.countOf_findingsAll_of_report options hook nodes reported
  refine ⟨?_, ?_, ?_, ?_, ?_, ?_⟩
  · intro defect
    rw [found, Pass.defects_absorb_start, Node.findingsAll, Findings.contains_defects_joinAll]
    simp [Element.contains_defects_findings, Element.hasDefect_check]
  · rw [found, Pass.isXhtml_absorb_start, Node.findingsAll, Findings.xhtml_joinAll]
    simp [Element.xhtml_findings, Element.check_beq_html, Element.isNamespaced]
  · rw [counted, silent (by decide)]
    simp [Report.notes, List.countP_cons]
  · rw [counted, silent (by decide)]
    simp [Report.notes, List.countP_cons]
  · rw [counted, silent (by decide)]
    simp [Report.notes, List.countP_cons]
  · rw [counted, Node.countOf_findingsAll]
    simp [Report.notes]

end Arena

end HtmlConformance
