import HtmlConformance.Check.Attribute
import HtmlConformance.Checking
import HtmlConformance.Proofs.Findings

namespace HtmlConformance

/-! What checks at work come to. An equation tells, for any pass, the answer of a check, what it
makes of its subject, and the findings that it adds to the pass; what a check reads of the pass
shows on the right of its equation. -/

/-! ## Findings on a list -/

/-- What is found on one entry of a list after another, where the entries that come later may
have a say. -/
def Findings.gathered {Part : Type} (found : Part → List Part → Findings) : List Part → Findings
  | [] => ∅
  | entry :: later => found entry later ++ gathered found later

theorem Findings.joinAll_map_eq_gathered {Part : Type} (found : Part → Findings)
    (list : List Part) : joinAll (list.map found) = gathered (fun entry _ => found entry) list := by
  induction list with
  | nil => rfl
  | cons entry later induction => rw [List.map_cons, joinAll_cons, induction, gathered]

namespace Checking

variable {Subject Part Answer Value : Type}

/-! ## Reports -/

section

variable (before : Subject) (pass : Pass) (owner : Owner)

@[simp] theorem run_report (kind : DiagnosticKind) (attr : Attribute) :
    (report kind owner attr).run before pass =
      ((), ⟨before, pass.absorb (owner.report kind attr)⟩) :=
  run_raise before pass _

@[simp] theorem run_reportMissing (name : String) :
    (reportMissing owner name).run before pass =
      ((), ⟨before, pass.absorb (owner.reportMissing name)⟩) :=
  run_raise before pass _

@[simp] theorem run_reportElement (kind : DiagnosticKind) :
    (reportElement kind owner).run before pass =
      ((), ⟨before, pass.absorb (.raise (.onElement kind owner.tag))⟩) :=
  run_raise before pass _

end

/-! ## Actions that leave their subject alone -/

/-- An action that adds findings to the pass, whatever its subject, and does nothing else. -/
def Adds (action : Checking Subject Unit) (findings : Findings) : Prop :=
  ∀ before pass, action.run before pass = ((), ⟨before, pass.absorb findings⟩)

section

variable (owner : Owner)

theorem adds_narrow (versions : VersionSet) :
    Adds (narrow versions : Checking Subject Unit) (.narrow versions) :=
  fun before pass => run_narrow before pass versions

theorem adds_flag (defect : Defect) :
    Adds (flag (.only defect) : Checking Subject Unit) (.flag defect) :=
  fun before pass => run_flag before pass defect

theorem adds_markXhtml : Adds (markXhtml : Checking Subject Unit) .namespaced :=
  fun before pass => run_markXhtml before pass

theorem adds_reportMissing (name : String) :
    Adds (reportMissing owner name : Checking Subject Unit) (owner.reportMissing name) :=
  fun before pass => run_reportMissing before pass owner name

theorem adds_reportElement (kind : DiagnosticKind) :
    Adds (reportElement kind owner : Checking Subject Unit)
      (.raise (.onElement kind owner.tag)) :=
  fun before pass => run_reportElement before pass owner kind

end

namespace Adds

variable {first second : Checking Subject Unit} {before after : Findings}

theorem andThen (adds : Adds first before) (addsLater : Adds second after) :
    Adds (do first; second) (before ++ after) := by
  intro subject pass
  rw [run_bind, adds, addsLater, Pass.absorb_append]

theorem when (adds : Adds first before) (condition : Bool) :
    Adds (Checking.when condition first) (if condition then before else ∅) := by
  intro subject pass
  cases condition <;> simp [adds subject pass]

end Adds

/-! ## Parts -/

theorem run_onPart (part : Part) (put : Part → Subject) (check : Checking Part Answer)
    (before : Subject) (pass : Pass) :
    (onPart part put check).run before pass =
      let left := check.run part pass
      (left.1, ⟨put left.2.subject, left.2.pass⟩) := rfl

@[simp] theorem run_onAttributes (check : Checking (List Attribute) Answer) (element : Element)
    (pass : Pass) :
    (onAttributes check).run element pass =
      let left := check.run element.attributes pass
      (left.1, ⟨{ element with attributes := left.2.subject }, left.2.pass⟩) := rfl

theorem run_atIndex (check : Checking Part Answer) (done : List Part) (entry : Part)
    (later : List Part) (pass : Pass) :
    (atIndex done.length check).run (done ++ entry :: later) pass =
      let left := check.run entry pass
      (some left.1, ⟨done ++ left.2.subject :: later, left.2.pass⟩) := by
  have here : (done ++ entry :: later)[done.length]? = some entry := by simp
  simp only [atIndex, run_bind, run_subject, here, run_map, run_onPart]
  simp

/-! ## Loops -/

/-- A step of a loop changes the entry at its index and nothing else in the list. -/
def StepsThrough (step : Value → Nat → Checking (List Part) Value) (options : Options)
    (next : Value → Part → Value) (after : Part → Part)
    (found : Part → List Part → Findings) : Prop :=
  ∀ value done entry later pass, pass.state.options = options →
    (step value done.length).run (done ++ entry :: later) pass =
      (next value entry, ⟨done ++ after entry :: later, pass.absorb (found entry later)⟩)

section

variable {step : Value → Nat → Checking (List Part) Value} {options : Options}
  {next : Value → Part → Value} {after : Part → Part} {found : Part → List Part → Findings}
  (steps : StepsThrough step options next after found)
include steps

/-- What is left of a loop once it has come so far depends only on the entries that are still
before it. -/
theorem StepsThrough.run_foldlM (value : Value) (done later : List Part) (pass : Pass)
    (same : pass.state.options = options) :
    ((List.range' done.length later.length).foldlM step value).run (done ++ later) pass =
      (later.foldl next value,
        ⟨done ++ later.map after, pass.absorb (.gathered found later)⟩) := by
  induction later generalizing value done pass with
  | nil => simp [Findings.gathered]
  | cons entry later induction =>
      have rest := induction (next value entry) (done ++ [after entry])
        (pass.absorb (found entry later)) same
      rw [List.length_append, List.length_singleton, List.append_assoc,
        List.singleton_append] at rest
      rw [List.length_cons, List.range'_succ, List.foldlM_cons, run_bind,
        steps value done entry later pass same]
      simp [rest, Findings.gathered, Pass.absorb_append]

theorem StepsThrough.run_throughIndices (start : Value) (list : List Part) (pass : Pass)
    (same : pass.state.options = options) :
    (throughIndices step start).run list pass =
      (list.foldl next start, ⟨list.map after, pass.absorb (.gathered found list)⟩) := by
  rw [throughIndices, run_bind, run_subject, List.range_eq_range']
  exact steps.run_foldlM start [] list pass same

end

end Checking

end HtmlConformance
