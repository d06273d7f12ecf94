import HtmlConformance.Check.IdRepair

namespace HtmlConformance

/-! What the checks of an element's attribute list as a whole come to. Every check first
looks for repeated names, then checks each attribute, and then applies a rule of its own:
attributes that have to be there, attributes that imply others, and versions that depend
on the element. At most one attribute is inserted, and it satisfies the rule that
inserted it. -/

namespace ElementCheck

/-- The attribute that the check judges itself, in place of the attribute table. -/
def skips : ElementCheck → Option String
  | caption => some "align"
  | _ => none

def sweep (check : ElementCheck) (options : Options) (owner : Owner) (element : Element) :
    Sweep :=
  .run options owner check.skips element.attributes

def swept (check : ElementCheck) (options : Options) (owner : Owner) (element : Element) :
    Element :=
  { element with attributes := (check.sweep options owner element).attributes }

/-! ## Inserted attributes -/

/-- Whether a script is taken for JavaScript: it names no language, or the first ten
characters of its language are one of the language's two names. -/
def isJavaScript (element : Element) : Bool :=
  match element.find? "language" with
  | none => true
  | some language =>
      language.value.any fun text =>
        Text.isOneOf (String.ofList (text.toList.take 10)) ["javascript", "jscript"]

def isStyleSheet (element : Element) : Bool :=
  (element.find? "rel").any fun relation => relation.value == some "stylesheet"

def inserted (check : ElementCheck) (options : Options) (sweep : Sweep) (element : Element) :
    Option Attribute :=
  match check with
  | style => if sweep.has "type" then none else some (.valued "type" "text/css")
  | script =>
      if !sweep.has "type" && isJavaScript element then
        some (.valued "type" "text/javascript")
      else
        none
  | link =>
      if isStyleSheet element && !sweep.has "type" then
        some (.valued "type" "text/css")
      else
        none
  | image =>
      if sweep.has "alt" then none else options.fallbackAlt.map (Attribute.valued "alt")
  | _ => none

def repair (check : ElementCheck) (options : Options) (hook : IdRepair) (owner : Owner)
    (element : Element) : Element :=
  let swept := check.swept options owner element
  match check with
  | table =>
      if options.xmlOutput then
        swept.modify "border" fun border =>
          { border with value := some (border.value.getD "1") }
      else
        swept
  | anchor | map => hook.repair options swept
  | _ =>
      match check.inserted options (check.sweep options owner element) swept with
      | none => swept
      | some attr => swept.push attr

/-! ## Findings -/

def unlessSeen (sweep : Sweep) (name : String) (findings : Findings) : Findings :=
  if sweep.has name then ∅ else findings

def captionFindings (owner : Owner) (element : Element) : Findings :=
  match element.find? "align" with
  | none => ∅
  | some align =>
      match align.value with
      | none => owner.report .missingAttributeValue align
      | some value =>
          if Text.isOneOf value ["left", "right"] then .narrow .iframe
          else if Text.isOneOf value ["top", "bottom"] then .narrow .from32
          else owner.report .badAttributeValue align

def imageFindings (owner : Owner) (sweep : Sweep) : Findings :=
  (if sweep.has "width" || sweep.has "height" then
    .narrow (.everything \ .only .html20)
  else
    ∅) ++
  unlessSeen sweep "alt" (.flag .missingImageAlt ++ owner.reportMissing "alt") ++
  unlessSeen sweep "src" (unlessSeen sweep "datafld" (owner.reportMissing "src")) ++
  (if sweep.has "ismap" && !sweep.has "usemap" then
    .flag .missingImageMap ++ .raise (.onElement .missingImagemap owner.tag)
  else
    ∅)

def ruleFindings (check : ElementCheck) (options : Options) (hook : IdRepair) (owner : Owner)
    (sweep : Sweep) (element : Element) : Findings :=
  match check with
  | html => if sweep.has "xmlns" then .namespaced else ∅
  | script | style => unlessSeen sweep "type" (owner.reportMissing "type")
  | table =>
      if options.doctype == some .html20 || options.doctype == some .html32 then
        ∅
      else
        unlessSeen sweep "summary" (.flag .missingSummary ++ owner.reportMissing "summary")
  | caption => captionFindings owner element
  | line =>
      if sweep.has "src" then
        match element.find? "src" with
        | none => ∅
        | some source => owner.report .proprietaryAttributeValue source
      else
        ∅
  | image => imageFindings owner sweep
  | area =>
      unlessSeen sweep "alt" (.flag .missingLinkAlt ++ owner.reportMissing "alt") ++
        unlessSeen sweep "href" (owner.reportMissing "href")
  | anchor | map => hook.findings options owner element
  | tableCell =>
      if sweep.has "width" || sweep.has "height" then
        .narrow (.everything \ .only .html40Strict)
      else
        ∅
  | link =>
      if isStyleSheet element then
        unlessSeen sweep "type" (owner.reportMissing "type")
      else
        ∅
  | generic => ∅

def findings (check : ElementCheck) (options : Options) (hook : IdRepair) (owner : Owner)
    (element : Element) : Findings :=
  let sweep := check.sweep options owner element
  Repeats.findings owner element.attributes ++ sweep.findings ++
    check.ruleFindings options hook owner sweep (check.swept options owner element)

end ElementCheck

namespace Element

/-- The check for an element; one whose tag is unknown has its attributes checked and
nothing more. -/
def check (element : Element) : ElementCheck :=
  ((ElementRule.find? element.tag).map ElementRule.check).getD .generic

def unknownTagWarning (tag : String) : Warning where
  component := "Validator"
  message := "unknown element <" ++ tag ++ ">, checking attributes only"

def repair (element : Element) (options : Options) (hook : IdRepair) : Element :=
  element.check.repair options hook (.ofTag element.tag) element

def findings (element : Element) (options : Options) (hook : IdRepair) : Findings :=
  let owner := Owner.ofTag element.tag
  (if owner.rule.isNone then .warn (unknownTagWarning element.tag) else ∅) ++
    element.check.findings options hook owner element

end Element

end HtmlConformance
