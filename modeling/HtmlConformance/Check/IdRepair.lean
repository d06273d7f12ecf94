import HtmlConformance.Check.Attribute
import HtmlConformance.Checking

namespace HtmlConformance

/-! How the `id` of anchors and image maps is brought into line. A host may bring a rule
of its own; it may append attributes, set values and report, and must not remove
attributes. -/

/-- A rule for ids: a check of an element, and what it comes to. It is told the options of
the pass; what it does to an element, and what it finds on the element before that, depends
on nothing else in the pass. -/
structure IdRepair where
  apply : Owner → Checking Element Unit
  repair : Options → Element → Element
  findings : Options → Owner → Element → Findings
  run_apply : ∀ owner element pass, (apply owner).run element pass =
    ((), ⟨repair pass.state.options element,
      pass.absorb (findings pass.state.options owner element)⟩)

namespace IdRepair

open Checking

def none : IdRepair where
  apply _ := pure ()
  repair _ element := element
  findings _ _ _ := ∅
  run_apply _ _ _ := by simp

def nameValue? (element : Element) : Option String :=
  (element.find? "name").bind Attribute.value

/-- Keep `id` and `name` in agreement. For XHTML output, which points at an element by
its id, a missing id is copied from the name and narrows the versions as a written one
would. An id that differs from the name is reported and stays. -/
def copyName : IdRepair where
  apply owner := do
    let element ← subject
    match nameValue? element with
    | Option.none => pure ()
    | some name =>
        match element.find? "id" with
        | Option.none =>
            when (← options).xmlOutput do
              setSubject (element.set "id" name)
              narrow (AttributeRule.get .id).versions
        | some id =>
            when (id.value != some name) do
              report .badAttributeValue owner id
  repair options element :=
    match nameValue? element, element.find? "id" with
    | some name, Option.none => if options.xmlOutput then element.set "id" name else element
    | _, _ => element
  findings options owner element :=
    match nameValue? element, element.find? "id" with
    | some _, Option.none =>
        if options.xmlOutput then .narrow (AttributeRule.get .id).versions else ∅
    | some name, some id =>
        if id.value == some name then ∅ else owner.report .badAttributeValue id
    | Option.none, _ => ∅
  run_apply owner element pass := by
    cases named : nameValue? element with
    | none => simp [named]
    | some name =>
        cases identified : element.find? "id" with
        | none =>
            cases output : pass.state.options.xmlOutput <;> simp [named, identified, output]
        | some id =>
            by_cases agrees : id.value = some name <;>
              simp [named, identified, agrees, Checking.report, Owner.report]

end IdRepair

end HtmlConformance
