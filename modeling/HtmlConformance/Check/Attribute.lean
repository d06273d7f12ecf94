import HtmlConformance.Findings
import HtmlConformance.Owner
import HtmlConformance.Rule.Attribute

namespace HtmlConformance

/-! What the checks of attributes come to: of single attributes, and of names repeated on
one element. An attribute is checked for its name, its versions and its value; its value
may be repaired, while its name, its quote and its template code never change. -/

namespace Owner

def report (owner : Owner) (kind : DiagnosticKind) (attr : Attribute) : Findings :=
  .raise (.onAttribute kind owner.tag attr)

def reportMissing (owner : Owner) (name : String) : Findings :=
  .raise (.onName .missingAttribute owner.tag name)

end Owner

/-! ## One attribute -/

def ValueRule.findings (rule : ValueRule) (owner : Owner) (attr : Attribute) : Findings :=
  match rule.judge owner.isImageLike attr.value with
  | .accepted => ∅
  | .missing => owner.report .missingAttributeValue attr
  | .bad => owner.report .badAttributeValue attr
  | .proprietary => .narrow .proprietary ++ owner.report .proprietaryAttributeValue attr

def ValueRule.repair (rule : ValueRule) (options : Options) (attr : Attribute) : Attribute :=
  { attr with value := attr.value.map (rule.repairValue options) }

/-- The findings on the versions of a known attribute. An attribute of XML is no fault in
XML mode and never narrows the versions; `title` on a link has been legal from the start. -/
def AttributeRule.versionFindings (rule : AttributeRule) (options : Options) (owner : Owner)
    (attr : Attribute) : Findings :=
  if rule.identity == .title && (owner.is .a || owner.is .link) then
    .narrow .standard
  else if rule.versions.intersects (.only .xml) then
    if options.xmlMode then ∅ else owner.report .xmlAttributeMisuse attr
  else
    .narrow rule.versions

def AttributeRule.findings (rule : AttributeRule) (options : Options) (owner : Owner)
    (attr : Attribute) : Findings :=
  rule.versionFindings options owner attr ++
    match rule.value with
    | none => ∅
    | some valueRule => valueRule.findings owner attr

namespace Attribute

def rule? (attr : Attribute) : Option AttributeRule := AttributeRule.find? attr.name

def valueRule? (attr : Attribute) : Option ValueRule := attr.rule?.bind AttributeRule.value

/-- Whether an unknown name on this owner is let pass: in XML input, on an unknown
element, on an element of a vendor, and where template code is involved. -/
def isExcused (attr : Attribute) (options : Options) (owner : Owner) : Bool :=
  options.xmlTags || owner.rule.isNone || attr.isTemplated ||
    owner.hasModel (.only .proprietary)

def findings (attr : Attribute) (options : Options) (owner : Owner) : Findings :=
  match attr.rule? with
  | some rule => rule.findings options owner attr
  | none =>
      if attr.isExcused options owner then ∅ else owner.report .unknownAttribute attr

def repair (attr : Attribute) (options : Options) : Attribute :=
  match attr.valueRule? with
  | none => attr
  | some rule => rule.repair options attr

end Attribute

/-! ## Repeated names -/

namespace Repeats

/-- The first later attribute that repeats a name; those with template code do not count. -/
def first? (name : String) (later : List Attribute) : Option Attribute :=
  later.find? fun attr => !attr.isTemplated && attr.isNamed name

def headFindings (owner : Owner) : List Attribute → Findings
  | [] => ∅
  | attr :: later =>
      match first? attr.name later with
      | none => ∅
      | some repeated => owner.report .repeatedAttribute repeated

def findings (owner : Owner) : List Attribute → Findings
  | [] => ∅
  | attr :: later =>
      (if attr.isTemplated then ∅ else headFindings owner (attr :: later)) ++
        findings owner later

end Repeats

/-! ## All attributes of an element -/

/-- What checking an attribute list leaves: the list after repairs, the findings, and the
rules that its names resolved to. -/
structure Sweep where
  attributes : List Attribute
  findings : Findings
  seen : List AttributeRule

namespace Sweep

def resolvesTo (attr : Attribute) (name : String) : Bool :=
  attr.rule?.any fun rule => rule.name == name

/-- Check every attribute of a list, except those that resolve to the name to skip; these
stay as they are and count as seen. -/
def run (options : Options) (owner : Owner) (skip : Option String)
    (attributes : List Attribute) : Sweep :=
  let skips (attr : Attribute) : Bool := skip.any (resolvesTo attr)
  { attributes := attributes.map fun attr => if skips attr then attr else attr.repair options
    findings := .joinAll <| attributes.map fun attr =>
      if skips attr then ∅ else attr.findings options owner
    seen := attributes.filterMap Attribute.rule? }

def has (sweep : Sweep) (name : String) : Bool := sweep.seen.any fun rule => rule.name == name

end Sweep

end HtmlConformance
