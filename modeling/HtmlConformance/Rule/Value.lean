import HtmlConformance.FlagSet
import HtmlConformance.Options
import HtmlConformance.Text

namespace HtmlConformance

/-! Rules for attribute values. A rule judges a value, and for two rules a value it
accepts is also rewritten: slashes for backslashes in a URL, and a number sign in front
of six hexadecimal digits that stand for a colour. -/

inductive ValueRule where
  | url
  | script
  /-- The alignment of text, or the place of an image. -/
  | align
  | valign
  /-- A switch whose presence is all that matters. -/
  | bool
  | id
  | name
  | number
  | length
  | color
  | target
  | scope
  | shape
  | textDirection
  | scrolling
  | clear
  | valueType
  | outerFrame
  | innerRules
  deriving DecidableEq

inductive Judgement where
  | accepted
  | missing
  | bad
  | proprietary
  deriving DecidableEq

/-! ## Grammars of values -/

namespace ValueGrammar

def isNumber (value : List Char) : Bool :=
  let digits := match value with
    | '-' :: rest => rest
    | _ => value
  !digits.isEmpty && digits.all Char.isDigit

/-- Digits with an optional percent sign or star after them, or a star alone, which is
one share of the space. -/
def isLength (value : List Char) : Bool :=
  let digits :=
    if value.getLast? = some '%' || value.getLast? = some '*' then value.dropLast else value
  if digits.isEmpty then value == ['*'] else digits.all Char.isDigit

def isSixHex (value : List Char) : Bool := value.length == 6 && value.all Char.isHexDigit

def isColorNumber : List Char → Bool
  | '#' :: digits => (digits.length == 3 || digits.length == 6) && digits.all Char.isHexDigit
  | _ => false

def colorNames : List String :=
  ["black", "silver", "gray", "white", "maroon", "red", "purple", "fuchsia", "green", "lime",
    "olive", "yellow", "navy", "blue", "teal", "aqua"]

/-- A colour by number or by name; six bare digits pass too. -/
def isColor (value : String) : Bool :=
  isColorNumber value.toList || isSixHex value.toList || Text.isOneOf value colorNames

/-- Anything that begins with an ASCII letter, or one of the reserved frame names. -/
def isTarget (value : String) : Bool :=
  value.toList.head?.any Char.isAlpha ||
    Text.isOneOf value ["_blank", "_self", "_parent", "_top"]

/-- The place of a box on a line, where `left` and `right` are for images only. -/
def judgePlace (imageLike : Bool) (value : String) : Judgement :=
  if Text.isOneOf value ["top", "middle", "bottom", "baseline"] then
    .accepted
  else if Text.isOneOf value ["left", "right"] then
    if imageLike then .accepted else .bad
  else if Text.isOneOf value ["texttop", "absmiddle", "absbottom", "textbottom"] then
    .proprietary
  else
    .bad

end ValueGrammar

namespace ValueRule

def all : List ValueRule :=
  [url, script, align, valign, bool, id, name, number, length, color, target, scope, shape,
    textDirection, scrolling, clear, valueType, outerFrame, innerRules]

instance : Enumerated ValueRule where
  values := all
  mem_values rule := by cases rule <;> decide
  nodup_values := by decide

def label : ValueRule → String
  | url => "Url"
  | script => "Script"
  | align => "Align"
  | valign => "Valign"
  | bool => "Bool"
  | id => "Id"
  | name => "Name"
  | number => "Number"
  | length => "Length"
  | color => "Color"
  | target => "Target"
  | scope => "Scope"
  | shape => "Shape"
  | textDirection => "TextDir"
  | scrolling => "Scroll"
  | clear => "Clear"
  | valueType => "Valuetype"
  | outerFrame => "FsFrame"
  | innerRules => "FsRules"

def needsValue : ValueRule → Bool
  | script | bool | id | name => false
  | _ => true

/-- The words that a rule allows where a list of words is all that it is about. -/
def keywords : ValueRule → List String
  | scope => ["row", "col", "rowgroup", "colgroup"]
  | shape => ["rect", "circle", "poly", "default"]
  | textDirection => ["ltr", "rtl"]
  | scrolling => ["yes", "no", "auto"]
  | clear => ["none", "left", "right", "all"]
  | valueType => ["data", "ref", "object"]
  | outerFrame =>
      ["void", "above", "below", "hsides", "lhs", "rhs", "vsides", "box", "border"]
  | innerRules => ["none", "groups", "rows", "cols", "all"]
  | _ => []

/-- What the rule makes of a value on an element that is or is not image-like. -/
def judgeValue (rule : ValueRule) (imageLike : Bool) (value : String) : Judgement :=
  let accept (test : Bool) : Judgement := if test then .accepted else .bad
  match rule with
  | url | script | bool | id | name => .accepted
  | align =>
      if imageLike then ValueGrammar.judgePlace imageLike value
      else accept (Text.isOneOf value ["left", "center", "right", "justify"])
  | valign => ValueGrammar.judgePlace imageLike value
  | number => accept (ValueGrammar.isNumber value.toList)
  | length => accept (ValueGrammar.isLength value.toList)
  | color => accept (ValueGrammar.isColor value)
  | target => accept (ValueGrammar.isTarget value)
  | _ => accept (Text.isOneOf value rule.keywords)

def judge (rule : ValueRule) (imageLike : Bool) : Option String → Judgement
  | none => if rule.needsValue then .missing else .accepted
  | some value => rule.judgeValue imageLike value

def repairValue (rule : ValueRule) (options : Options) (value : String) : String :=
  match rule with
  | url =>
      if options.slashUrls then
        value.map fun char => if char = '\\' then '/' else char
      else
        value
  | color => if ValueGrammar.isSixHex value.toList then "#" ++ value else value
  | _ => value

end ValueRule

end HtmlConformance
