import HtmlConformance.Version

namespace HtmlConformance

/-! What a caller may ask of a pass over a document. -/

structure Options where
  /-- Backslashes in URL values become slashes. -/
  slashUrls : Bool := false
  /-- The input is generic XML, so unknown attributes are not reported. -/
  xmlTags : Bool := false
  /-- The output will be XHTML, so bare attributes may be given values. -/
  xmlOutput : Bool := false
  /-- The alternative text put on images that have none. -/
  fallbackAlt : Option String := none
  doctype : Option Version := none
  deriving DecidableEq

namespace Options

def xmlMode (options : Options) : Bool := options.xmlTags || options.xmlOutput

end Options

end HtmlConformance
