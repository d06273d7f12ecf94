import HtmlConformance.Findings
import HtmlConformance.Options

namespace HtmlConformance

/-! The course of a pass over a document. The possible versions only ever shrink and the
defects only ever grow. -/

structure State where
  options : Options := {}
  versions : VersionSet := .everything
  defects : DefectSet := ∅
  isXhtml : Bool := false
  deriving DecidableEq

namespace State

def narrow (state : State) (versions : VersionSet) : State :=
  { state with versions := state.versions ∩ versions }

def flag (state : State) (defects : DefectSet) : State :=
  { state with defects := state.defects ∪ defects }

def markXhtml (state : State) : State := { state with isXhtml := true }

def absorb (state : State) (findings : Findings) : State :=
  { state with
    versions := state.versions ∩ findings.allowed
    defects := state.defects ∪ findings.defects
    isXhtml := state.isXhtml || findings.xhtml }

end State

/-- A pass under way: the state, the diagnostics in the order they were raised, and the
warnings to the operator. -/
structure Pass where
  state : State := {}
  diagnostics : Array Diagnostic := #[]
  log : WarningLog := {}

namespace Pass

def start (options : Options) : Pass := { state := { options } }

def absorb (pass : Pass) (findings : Findings) : Pass where
  state := pass.state.absorb findings
  diagnostics := pass.diagnostics ++ findings.diagnostics
  log := pass.log.warnAll findings.warnings

/-! ## Single findings -/

variable (pass : Pass)

@[simp] theorem options_absorb (findings : Findings) :
    (pass.absorb findings).state.options = pass.state.options := rfl

@[simp] theorem absorb_empty : pass.absorb ∅ = pass := by
  simp [absorb, State.absorb, VersionSet.everything, WarningLog.warnAll]

theorem absorb_narrow (versions : VersionSet) :
    pass.absorb (.narrow versions) = { pass with state := pass.state.narrow versions } := by
  simp [absorb, State.absorb, State.narrow, Findings.narrow, WarningLog.warnAll]

theorem absorb_flag (defect : Defect) :
    pass.absorb (.flag defect) = { pass with state := pass.state.flag (.only defect) } := by
  simp [absorb, State.absorb, State.flag, Findings.flag, VersionSet.everything,
    WarningLog.warnAll]

theorem absorb_namespaced :
    pass.absorb .namespaced = { pass with state := pass.state.markXhtml } := by
  simp [absorb, State.absorb, State.markXhtml, Findings.namespaced, VersionSet.everything,
    WarningLog.warnAll]

theorem absorb_raise (diagnostic : Diagnostic) :
    pass.absorb (.raise diagnostic) =
      { pass with diagnostics := pass.diagnostics.push diagnostic } := by
  simp [absorb, State.absorb, Findings.raise, VersionSet.everything, WarningLog.warnAll]

theorem absorb_warn (warning : Warning) :
    pass.absorb (.warn warning) = { pass with log := pass.log.warn warning } := by
  simp [absorb, State.absorb, Findings.warn, VersionSet.everything, WarningLog.warnAll]

end Pass

end HtmlConformance
