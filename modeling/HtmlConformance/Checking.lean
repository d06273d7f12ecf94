import HtmlConformance.Element
import HtmlConformance.Owner
import HtmlConformance.State

namespace HtmlConformance

/-! Checks at work. A check has a subject, which it may change in place, and writes what it
finds into the pass as it goes along: versions are narrowed, defects flagged, diagnostics
raised. Nothing keeps a check from reading what others wrote there before it. -/

/-- What a check has before it: the thing that it is about, and the pass. -/
structure CheckContext (Subject : Type) where
  subject : Subject
  pass : Pass

abbrev Checking (Subject Answer : Type) := StateM (CheckContext Subject) Answer

namespace Checking

variable {Subject Part Answer Other : Type}

/-- The answer of a check, and what it leaves. -/
def run (check : Checking Subject Answer) (subject : Subject) (pass : Pass) :
    Answer × CheckContext Subject :=
  (StateT.run check { subject, pass }).run

def subject : Checking Subject Subject := return (← get).subject

def setSubject (subject : Subject) : Checking Subject Unit :=
  modify fun context => { context with subject }

def options : Checking Subject Options := return (← get).pass.state.options

def modifyPass (change : Pass → Pass) : Checking Subject Unit :=
  modify fun context => { context with pass := change context.pass }

def narrow (versions : VersionSet) : Checking Subject Unit :=
  modifyPass fun pass => { pass with state := pass.state.narrow versions }

def flag (defects : DefectSet) : Checking Subject Unit :=
  modifyPass fun pass => { pass with state := pass.state.flag defects }

def markXhtml : Checking Subject Unit :=
  modifyPass fun pass => { pass with state := pass.state.markXhtml }

def raise (diagnostic : Diagnostic) : Checking Subject Unit :=
  modifyPass fun pass => { pass with diagnostics := pass.diagnostics.push diagnostic }

def warn (warning : Warning) : Checking Subject Unit :=
  modifyPass fun pass => { pass with log := pass.log.warn warning }

def report (kind : DiagnosticKind) (owner : Owner) (attr : Attribute) :
    Checking Subject Unit :=
  raise (.onAttribute kind owner.tag attr)

def reportMissing (owner : Owner) (name : String) : Checking Subject Unit :=
  raise (.onName .missingAttribute owner.tag name)

def reportElement (kind : DiagnosticKind) (owner : Owner) : Checking Subject Unit :=
  raise (.onElement kind owner.tag)

def when (condition : Bool) (action : Checking Subject Unit) : Checking Subject Unit :=
  if condition then action else pure ()

/-! ## Parts of a subject -/

/-- Check a part of the subject, and put back what the check makes of it. -/
def onPart (part : Part) (put : Part → Subject) (check : Checking Part Answer) :
    Checking Subject Answer := do
  let (answer, left) := check.run part (← get).pass
  set { subject := put left.subject, pass := left.pass : CheckContext Subject }
  return answer

def onAttributes (check : Checking (List Attribute) Answer) : Checking Element Answer := do
  let element ← subject
  onPart element.attributes (fun attributes => { element with attributes }) check

/-- Check the entry at an index of a list, in its place. Where the list does not reach so
far there is nothing to check, and no answer. -/
def atIndex (index : Nat) (check : Checking Part Answer) :
    Checking (List Part) (Option Answer) := do
  let list ← subject
  match list[index]? with
  | none => return none
  | some entry => some <$> onPart entry (list.set index) check

/-- Go through the indices of a list as it stands at first, with a value that each step
hands to the next. -/
def throughIndices {Value : Type} (step : Value → Nat → Checking (List Part) Value)
    (start : Value) : Checking (List Part) Value := do
  (List.range (← subject).length).foldlM step start

/-! ## Single steps -/

section

variable (before : Subject) (pass : Pass)

@[simp] theorem run_pure (answer : Answer) :
    (pure answer : Checking Subject Answer).run before pass = (answer, ⟨before, pass⟩) := rfl

@[simp] theorem run_bind (check : Checking Subject Answer)
    (next : Answer → Checking Subject Other) :
    (check >>= next).run before pass =
      (next (check.run before pass).1).run (check.run before pass).2.subject
        (check.run before pass).2.pass := rfl

@[simp] theorem run_map (change : Answer → Other) (check : Checking Subject Answer) :
    (change <$> check).run before pass =
      (change (check.run before pass).1, (check.run before pass).2) := rfl

@[simp] theorem run_ite (condition : Prop) [Decidable condition]
    (yes no : Checking Subject Answer) :
    (if condition then yes else no).run before pass =
      if condition then yes.run before pass else no.run before pass :=
  apply_ite (fun check => check.run before pass) condition yes no

@[simp] theorem run_when (condition : Bool) (action : Checking Subject Unit) :
    (when condition action).run before pass =
      if condition then action.run before pass else ((), ⟨before, pass⟩) :=
  run_ite before pass condition action (pure ())

@[simp] theorem run_subject : (subject : Checking Subject Subject).run before pass =
    (before, ⟨before, pass⟩) := rfl

@[simp] theorem run_setSubject (after : Subject) :
    (setSubject after).run before pass = ((), ⟨after, pass⟩) := rfl

@[simp] theorem run_options : (options : Checking Subject Options).run before pass =
    (pass.state.options, ⟨before, pass⟩) := rfl

@[simp] theorem run_narrow (versions : VersionSet) :
    (narrow versions : Checking Subject Unit).run before pass =
      ((), ⟨before, pass.absorb (.narrow versions)⟩) := by
  rw [Pass.absorb_narrow]
  rfl

@[simp] theorem run_flag (defect : Defect) :
    (flag (.only defect) : Checking Subject Unit).run before pass =
      ((), ⟨before, pass.absorb (.flag defect)⟩) := by
  rw [Pass.absorb_flag]
  rfl

@[simp] theorem run_markXhtml : (markXhtml : Checking Subject Unit).run before pass =
    ((), ⟨before, pass.absorb .namespaced⟩) := by
  rw [Pass.absorb_namespaced]
  rfl

@[simp] theorem run_raise (diagnostic : Diagnostic) :
    (raise diagnostic : Checking Subject Unit).run before pass =
      ((), ⟨before, pass.absorb (.raise diagnostic)⟩) := by
  rw [Pass.absorb_raise]
  rfl

@[simp] theorem run_warn (warning : Warning) :
    (warn warning : Checking Subject Unit).run before pass =
      ((), ⟨before, pass.absorb (.warn warning)⟩) := by
  rw [Pass.absorb_warn]
  rfl

end

end Checking

end HtmlConformance
