import HtmlConformance.Arena.Nested
import HtmlConformance.Checking.Element

namespace HtmlConformance

/-! A pass over a whole document, in document order: over numbered nodes, and over
nested ones. -/

namespace Arena

/-- Check the element at a node, if it holds one, and put it back repaired. -/
def visit (hook : IdRepair) (progress : Arena × Pass) (id : NodeId) : Arena × Pass :=
  match progress.1.element? id with
  | none => progress
  | some element =>
      let (repaired, pass) := progress.2.visit hook element
      (progress.1.setContent id (.element repaired), pass)

def validate (arena : Arena) (hook : IdRepair) (pass : Pass) : Arena × Pass :=
  (arena.elementsFrom root).foldl (visit hook) (arena, pass)

end Arena

mutual

def Node.validate (hook : IdRepair) (pass : Pass) : Node → Node × Pass
  | .element head children =>
      let (repaired, entered) := pass.visit hook head
      let (rest, left) := Node.validateAll hook entered children
      (.element repaired rest, left)
  | .text content => (.text content, pass)
  | .comment content => (.comment content, pass)

def Node.validateAll (hook : IdRepair) (pass : Pass) : List Node → List Node × Pass
  | [] => ([], pass)
  | node :: rest =>
      let (checked, between) := node.validate hook pass
      let (others, left) := Node.validateAll hook between rest
      (checked :: others, left)

end

end HtmlConformance
