import HtmlConformance.Element

namespace HtmlConformance

/-! A document as nested nodes: elements with children, character data and comments.
This is the form in which documents are read and written. -/

inductive Node where
  | element (head : Element) (children : List Node)
  | text (content : String)
  | comment (content : String)

mutual

def Node.count : Node → Nat
  | .element _ children => Node.countAll children + 1
  | .text _ => 1
  | .comment _ => 1

def Node.countAll : List Node → Nat
  | [] => 0
  | node :: rest => node.count + Node.countAll rest

end

mutual

/-- The elements of a subtree in document order: an element, then its children from
first to last. -/
def Node.elements : Node → List Element
  | .element head children => head :: Node.elementsAll children
  | .text _ => []
  | .comment _ => []

def Node.elementsAll : List Node → List Element
  | [] => []
  | node :: rest => node.elements ++ Node.elementsAll rest

end

end HtmlConformance
