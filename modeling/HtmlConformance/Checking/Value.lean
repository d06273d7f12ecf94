import HtmlConformance.Checking
import HtmlConformance.Rule.Value

namespace HtmlConformance

/-! The check of an attribute's value. It may rewrite the value, narrow the versions and
report; the attribute itself stays. -/

namespace Checking

def setValue (value : String) : Checking Attribute Unit := do
  setSubject { ← subject with value := some value }

/-- The value of the attribute. It is reported if there is none. -/
def requiredValue (owner : Owner) : Checking Attribute (Option String) := do
  let attr ← subject
  when attr.value.isNone do
    report .missingAttributeValue owner attr
  return attr.value

def reportBad (owner : Owner) : Checking Attribute Unit := do
  report .badAttributeValue owner (← subject)

/-- Report a value that fails a test. -/
def checkValue (owner : Owner) (passes : String → Bool) : Checking Attribute Unit := do
  let some value ← requiredValue owner | pure ()
  when (!passes value) do
    reportBad owner

def checkUrl (owner : Owner) : Checking Attribute Unit := do
  let some value ← requiredValue owner | pure ()
  when ((← options).slashUrls && value.toList.contains '\\') do
    setValue (value.map fun char => if char = '\\' then '/' else char)

def checkPlace (owner : Owner) : Checking Attribute Unit := do
  let some value ← requiredValue owner | pure ()
  if Text.isOneOf value ["top", "middle", "bottom", "baseline"] then
    pure ()
  else if Text.isOneOf value ["left", "right"] then
    when (!owner.isImageLike) do
      reportBad owner
  else if Text.isOneOf value ["texttop", "absmiddle", "absbottom", "textbottom"] then
    narrow .proprietary
    report .proprietaryAttributeValue owner (← subject)
  else
    reportBad owner

def checkAlign (owner : Owner) : Checking Attribute Unit :=
  if owner.isImageLike then
    checkPlace owner
  else
    checkValue owner fun value => Text.isOneOf value ["left", "center", "right", "justify"]

def checkColor (owner : Owner) : Checking Attribute Unit := do
  let some value ← requiredValue owner | pure ()
  if value.toList.head? = some '#' then
    when (!ValueGrammar.isColorNumber value.toList) do
      reportBad owner
  else if ValueGrammar.isSixHex value.toList then
    setValue ("#" ++ value)
  else
    when (!Text.isOneOf value ValueGrammar.colorNames) do
      reportBad owner

end Checking

open Checking in
def ValueRule.apply (owner : Owner) : ValueRule → Checking Attribute Unit
  | url => checkUrl owner
  | script | bool | id | name => pure ()
  | align => checkAlign owner
  | valign => checkPlace owner
  | number => checkValue owner fun value => ValueGrammar.isNumber value.toList
  | length => checkValue owner fun value => ValueGrammar.isLength value.toList
  | color => checkColor owner
  | target => checkValue owner ValueGrammar.isTarget
  | rule => checkValue owner fun value => Text.isOneOf value rule.keywords

end HtmlConformance
