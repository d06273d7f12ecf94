import HtmlConformance.Check.Element
import HtmlConformance.Checking.Attribute

namespace HtmlConformance

/-! The checks of an element's attribute list as a whole, and the visit that a pass pays to
an element. -/

open Checking

namespace ElementCheck

def checkAll (owner : Owner) (skip : Option AttributeId := none) :
    Checking Element SeenAttributes :=
  onAttributes (checkAttributes owner skip)

def push (attr : Attribute) : Checking Element Unit := do
  setSubject ((← subject).push attr)

def applyHtml (owner : Owner) : Checking (List Attribute) Unit :=
  throughIndices (fun _ index => do
    let answer ← atIndex index (checkAttribute owner)
    when (answer.join.any fun rule => rule.identity == .xmlns) markXhtml) ()

def applyScript (owner : Owner) : Checking Element Unit := do
  let seen ← checkAll owner
  when (!seen.contains .type) do
    reportMissing owner "type"
    when (isJavaScript (← subject)) do
      push (.valued "type" "text/javascript")

def applyTable (owner : Owner) : Checking Element Unit := do
  let seen ← checkAll owner
  let early := (← options).doctype == some .html20 || (← options).doctype == some .html32
  when (!seen.contains .summary && !early) do
    flag (.only .missingSummary)
    reportMissing owner "summary"
  when (← options).xmlOutput do
    setSubject <| (← subject).modify "border" fun border =>
      if border.value.isNone then { border with value := some "1" } else border

def applyCaption (owner : Owner) : Checking Element Unit := do
  let _ ← checkAll owner (some .align)
  match (← subject).find? "align" with
  | none => pure ()
  | some align =>
      match align.value with
      | none => report .missingAttributeValue owner align
      | some value =>
          if Text.isOneOf value ["left", "right"] then
            narrow .iframe
          else if Text.isOneOf value ["top", "bottom"] then
            narrow .from32
          else
            report .badAttributeValue owner align

def applyLine (owner : Owner) : Checking Element Unit := do
  let seen ← checkAll owner
  when (seen.contains .src) do
    match (← subject).find? "src" with
    | none => pure ()
    | some source => report .proprietaryAttributeValue owner source

def pushFallback : Checking Element Unit := do
  match (← options).fallbackAlt with
  | none => pure ()
  | some text => push (.valued "alt" text)

def applyImage (owner : Owner) : Checking Element Unit := do
  let seen ← checkAll owner
  when (seen.contains .width || seen.contains .height) do
    narrow (.everything \ .only .html20)
  when (!seen.contains .alt) do
    flag (.only .missingImageAlt)
    reportMissing owner "alt"
    pushFallback
  when (!seen.contains .src && !seen.contains .datafld) do
    reportMissing owner "src"
  when (seen.contains .ismap && !seen.contains .usemap) do
    flag (.only .missingImageMap)
    reportElement .missingImagemap owner

def applyArea (owner : Owner) : Checking Element Unit := do
  let seen ← checkAll owner
  when (!seen.contains .alt) do
    flag (.only .missingLinkAlt)
    reportMissing owner "alt"
  when (!seen.contains .href) do
    reportMissing owner "href"

def applyStyle (owner : Owner) : Checking Element Unit := do
  let seen ← checkAll owner
  when (!seen.contains .type) do
    reportMissing owner "type"
    push (.valued "type" "text/css")

def applyTableCell (owner : Owner) : Checking Element Unit := do
  let seen ← checkAll owner
  when (seen.contains .width || seen.contains .height) do
    narrow (.everything \ .only .html40Strict)

def applyLink (owner : Owner) : Checking Element Unit := do
  let seen ← checkAll owner
  when (isStyleSheet (← subject) && !seen.contains .type) do
    reportMissing owner "type"
    push (.valued "type" "text/css")

/-- What a check does once it has looked for repeated names. -/
def action (check : ElementCheck) (hook : IdRepair) (owner : Owner) :
    Checking Element Unit :=
  match check with
  | html => onAttributes (applyHtml owner)
  | script => applyScript owner
  | table => applyTable owner
  | caption => applyCaption owner
  | line => applyLine owner
  | image => applyImage owner
  | area => applyArea owner
  | anchor | map => do
      let _ ← checkAll owner
      hook.apply owner
  | style => applyStyle owner
  | tableCell => applyTableCell owner
  | link => applyLink owner
  | generic => do
      let _ ← checkAll owner

def apply (check : ElementCheck) (hook : IdRepair) (owner : Owner) :
    Checking Element Unit := do
  onAttributes (checkAllUnique owner)
  check.action hook owner

end ElementCheck

def Checking.checkElement (hook : IdRepair) : Checking Element Unit := do
  let element ← subject
  match ElementRule.find? element.tag with
  | some rule => rule.check.apply hook { tag := element.tag, rule := some rule }
  | none =>
      warn (Element.unknownTagWarning element.tag)
      ElementCheck.generic.apply hook { tag := element.tag, rule := none }

/-- Check one element in the course of a pass. -/
def Pass.visit (hook : IdRepair) (pass : Pass) (element : Element) : Element × Pass :=
  let left := ((checkElement hook).run element pass).2
  (left.subject, left.pass)

end HtmlConformance
