import HtmlConformance.Rule.Element

namespace HtmlConformance

/-! What the checks of an attribute see of the element that it belongs to. -/

/-- The element that an attribute belongs to: its tag as written, and the rule for the
tag if there is one. -/
structure Owner where
  tag : String
  rule : Option ElementRule
  deriving DecidableEq

namespace Owner

def ofTag (tag : String) : Owner := { tag, rule := ElementRule.find? tag }

def is (owner : Owner) (identity : ElementId) : Bool :=
  owner.rule.any fun rule => rule.identity == identity

def hasModel (owner : Owner) (flags : ContentModel) : Bool :=
  owner.rule.any fun rule => rule.model.has flags

/-- On image-like elements `align` places the box instead of the text. -/
def isImageLike (owner : Owner) : Bool := owner.hasModel (.only .image)

end Owner

end HtmlConformance
