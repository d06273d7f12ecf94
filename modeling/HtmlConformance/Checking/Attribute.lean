import HtmlConformance.Checking.Value
import HtmlConformance.Rule.Attribute

namespace HtmlConformance

/-! The checks of an attribute list: of one attribute, of repeated names, and of all
attributes in turn. -/

/-- The attributes of the table that were met in a list. -/
abbrev SeenAttributes := FlagSet AttributeId

def SeenAttributes.record (seen : SeenAttributes) : Option AttributeId → SeenAttributes
  | none => seen
  | some identity => seen ∪ .only identity

def Attribute.resolvesTo (attr : Attribute) (identity : AttributeId) : Bool :=
  (AttributeRule.find? attr.name).any fun rule => rule.identity == identity

namespace Checking

/-- Check the versions of a known attribute. One of XML is no fault in XML mode and never
narrows the versions; `title` on a link has been legal from the start. -/
def checkVersions (rule : AttributeRule) (owner : Owner) : Checking Attribute Unit := do
  if rule.identity == .title && (owner.is .a || owner.is .link) then
    narrow .standard
  else if rule.versions.intersects (.only .xml) then
    when (!(← options).xmlMode) do
      report .xmlAttributeMisuse owner (← subject)
  else
    narrow rule.versions

/-- Check the name, the versions and the value of an attribute. The answer is the rule for
its name. -/
def checkAttribute (owner : Owner) : Checking Attribute (Option AttributeRule) := do
  let attr ← subject
  match AttributeRule.find? attr.name with
  | none =>
      let excused := (← options).xmlTags || owner.rule.isNone || attr.isTemplated ||
        owner.hasModel (.only .proprietary)
      when (!excused) do
        report .unknownAttribute owner attr
      return none
  | some rule =>
      checkVersions rule owner
      match rule.value with
      | none => pure ()
      | some valueRule => valueRule.apply owner
      return some rule

/-! ## Repeated names -/

/-- Report the next attribute that repeats the name of the one at an index; those with
template code do not count. -/
def checkUniqueness (owner : Owner) (index : Nat) : Checking (List Attribute) Unit := do
  match (← subject).drop index with
  | [] => pure ()
  | attr :: later =>
      match later.find? fun other => !other.isTemplated && other.isNamed attr.name with
      | none => pure ()
      | some repeated => report .repeatedAttribute owner repeated

/-- Look for repetitions of a name unless the attribute has template code. -/
def checkRepeats (owner : Owner) (index : Nat) : Checking (List Attribute) Unit := do
  match (← subject)[index]? with
  | none => pure ()
  | some attr =>
      when (!attr.isTemplated) do
        checkUniqueness owner index

def checkAllUnique (owner : Owner) : Checking (List Attribute) Unit :=
  throughIndices (fun _ index => checkRepeats owner index) ()

/-! ## Attributes in a list -/

/-- Check the attribute at an index, first for repetitions of its name. The answer is the
rule for its name; an index beyond the list, which a caller must not ask for, has none. -/
def checkAttributeAt (owner : Owner) (index : Nat) :
    Checking (List Attribute) (Option (Option AttributeRule)) := do
  checkRepeats owner index
  atIndex index (checkAttribute owner)

/-- Check an attribute, unless it resolves to the identity to skip. The answer is the
identity that was met, skipped or not. -/
def checkUnlessSkipped (owner : Owner) (skip : Option AttributeId) :
    Checking Attribute (Option AttributeId) := do
  let attr ← subject
  if skip.any attr.resolvesTo then
    return skip
  else
    return (← checkAttribute owner).map AttributeRule.identity

/-- Check all attributes in turn, except those that resolve to the identity to skip. -/
def checkAttributes (owner : Owner) (skip : Option AttributeId) :
    Checking (List Attribute) SeenAttributes :=
  throughIndices (fun seen index => do
    let met ← atIndex index (checkUnlessSkipped owner skip)
    return seen.record met.join) ∅

end Checking

end HtmlConformance
