import HtmlConformance.Proofs.Checking.Element
import HtmlConformance.Validation

namespace HtmlConformance

/-! The recursive pass over nested nodes, taken apart: what it does to each element, and what
it finds on all of them, in document order. -/

namespace Node

mutual

def mapElements (change : Element → Element) : Node → Node
  | .element head children => .element (change head) (mapElementsAll change children)
  | .text content => .text content
  | .comment content => .comment content

def mapElementsAll (change : Element → Element) : List Node → List Node
  | [] => []
  | node :: rest => mapElements change node :: mapElementsAll change rest

end

/-- The nodes without attributes: tags, character data and comments, each in its place. -/
def outlineAll (nodes : List Node) : List Node :=
  mapElementsAll (fun element => { element with attributes := [] }) nodes

def findingsAll (options : Options) (hook : IdRepair) (nodes : List Node) : Findings :=
  .joinAll ((elementsAll nodes).map fun element => element.findings options hook)

/-! ## Changing elements -/

variable (change second : Element → Element)

mutual

@[simp] theorem count_mapElements (node : Node) :
    (mapElements change node).count = node.count := by
  cases node with
  | element head children => simp [mapElements, count, countAll_mapElementsAll children]
  | text content => rfl
  | comment content => rfl

@[simp] theorem countAll_mapElementsAll (nodes : List Node) :
    countAll (mapElementsAll change nodes) = countAll nodes := by
  cases nodes with
  | nil => rfl
  | cons node rest =>
      simp [mapElementsAll, countAll, count_mapElements node, countAll_mapElementsAll rest]

end

mutual

theorem elements_mapElements (node : Node) :
    (mapElements change node).elements = node.elements.map change := by
  cases node with
  | element head children => simp [mapElements, elements, elementsAll_mapElementsAll children]
  | text content => rfl
  | comment content => rfl

@[simp] theorem elementsAll_mapElementsAll (nodes : List Node) :
    elementsAll (mapElementsAll change nodes) = (elementsAll nodes).map change := by
  cases nodes with
  | nil => rfl
  | cons node rest =>
      simp [mapElementsAll, elementsAll, elements_mapElements node,
        elementsAll_mapElementsAll rest]

end

mutual

theorem mapElements_mapElements (node : Node) :
    mapElements second (mapElements change node) = mapElements (second ∘ change) node := by
  cases node with
  | element head children => simp [mapElements, mapElementsAll_mapElementsAll children]
  | text content => rfl
  | comment content => rfl

theorem mapElementsAll_mapElementsAll (nodes : List Node) :
    mapElementsAll second (mapElementsAll change nodes) =
      mapElementsAll (second ∘ change) nodes := by
  cases nodes with
  | nil => rfl
  | cons node rest =>
      simp [mapElementsAll, mapElements_mapElements node, mapElementsAll_mapElementsAll rest]

end

theorem outlineAll_mapElementsAll (keepsTag : ∀ element, (change element).tag = element.tag)
    (nodes : List Node) : outlineAll (mapElementsAll change nodes) = outlineAll nodes := by
  rw [outlineAll, mapElementsAll_mapElementsAll]
  have same : (fun element : Element => { element with attributes := [] }) ∘ change =
      fun element => { element with attributes := [] } := by
    funext element
    simp [keepsTag]
  rw [same, outlineAll]

/-! ## The recursive pass -/

mutual

theorem validate_eq (hook : IdRepair) (pass : Pass) (node : Node) :
    node.validate hook pass =
      (mapElements (fun element => element.repair pass.state.options hook) node,
        pass.absorb (.joinAll
          (node.elements.map fun element => element.findings pass.state.options hook))) := by
  cases node with
  | element head children =>
      simp [validate, Pass.visit_eq, validateAll_eq hook _ children, mapElements, elements,
        findingsAll, Pass.absorb_append]
  | text content => simp [validate, mapElements, elements]
  | comment content => simp [validate, mapElements, elements]

/-- The recursive pass repairs every element by itself and takes in the findings of all. -/
theorem validateAll_eq (hook : IdRepair) (pass : Pass) (nodes : List Node) :
    validateAll hook pass nodes =
      (mapElementsAll (fun element => element.repair pass.state.options hook) nodes,
        pass.absorb (findingsAll pass.state.options hook nodes)) := by
  cases nodes with
  | nil => simp [validateAll, mapElementsAll, findingsAll, elementsAll]
  | cons node rest =>
      simp [validateAll, validate_eq hook pass node, validateAll_eq hook _ rest,
        mapElementsAll, findingsAll, elementsAll, Pass.absorb_append]

end

end Node

end HtmlConformance
