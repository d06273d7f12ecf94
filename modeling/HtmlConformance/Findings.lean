import HtmlConformance.Defect
import HtmlConformance.Diagnostic
import HtmlConformance.Version
import HtmlConformance.Warning

namespace HtmlConformance

/-! What a check has to say, as a value. Findings can be collected and joined; joining is
associative, and no findings at all is its identity. -/

/-- The outcome of a check: the versions it leaves possible, the accessibility defects
and the diagnostics it adds, whether it saw an XHTML namespace, and its warnings to the
operator. -/
structure Findings where
  allowed : VersionSet := .everything
  defects : DefectSet := ∅
  xhtml : Bool := false
  diagnostics : List Diagnostic := []
  warnings : List Warning := []
  deriving DecidableEq

namespace Findings

def none : Findings := {}

def join (first second : Findings) : Findings where
  allowed := first.allowed ∩ second.allowed
  defects := first.defects ∪ second.defects
  xhtml := first.xhtml || second.xhtml
  diagnostics := first.diagnostics ++ second.diagnostics
  warnings := first.warnings ++ second.warnings

instance : EmptyCollection Findings := ⟨none⟩
instance : Append Findings := ⟨join⟩

@[simp] theorem allowed_empty : (∅ : Findings).allowed = .everything := rfl
@[simp] theorem defects_empty : (∅ : Findings).defects = ∅ := rfl
@[simp] theorem xhtml_empty : (∅ : Findings).xhtml = false := rfl
@[simp] theorem diagnostics_empty : (∅ : Findings).diagnostics = [] := rfl
@[simp] theorem warnings_empty : (∅ : Findings).warnings = [] := rfl

def joinAll (findings : List Findings) : Findings := findings.foldr join none

def narrow (versions : VersionSet) : Findings := { allowed := versions }

def flag (defect : Defect) : Findings := { defects := .only defect }

def namespaced : Findings := { xhtml := true }

def raise (diagnostic : Diagnostic) : Findings := { diagnostics := [diagnostic] }

def warn (warning : Warning) : Findings := { warnings := [warning] }

end Findings

end HtmlConformance
