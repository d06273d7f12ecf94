import HtmlConformance.Proofs.Traversal

namespace HtmlConformance.Node

/-! Two documents side by side: trees of one shape, with the same character data and comments,
whose elements are compared where they stand at the same place. -/

mutual

/-- The trees have one shape, and elements at the same place are related. -/
def Paired (related : Element → Element → Prop) : Node → Node → Prop
  | .element head children, .element other others =>
      related head other ∧ PairedAll related children others
  | .text content, .text other => content = other
  | .comment content, .comment other => content = other
  | _, _ => False

def PairedAll (related : Element → Element → Prop) : List Node → List Node → Prop
  | [], [] => True
  | node :: rest, other :: others => Paired related node other ∧ PairedAll related rest others
  | _, _ => False

end

mutual

/-- The second tree, each element of it changed in view of the element that stands at its place
in the first. -/
def beside (change : Element → Element → Element) : Node → Node → Node
  | .element head children, .element other others =>
      .element (change head other) (besideAll change children others)
  | _, other => other

def besideAll (change : Element → Element → Element) : List Node → List Node → List Node
  | node :: rest, other :: others => beside change node other :: besideAll change rest others
  | _, others => others

end

/-! ## Pairs of elements -/

variable {related : Element → Element → Prop}

mutual

theorem paired_refl (refl : ∀ element, related element element) (node : Node) :
    Paired related node node := by
  cases node with
  | element head children => exact ⟨refl head, pairedAll_refl refl children⟩
  | text content => exact rfl
  | comment content => exact rfl

theorem pairedAll_refl (refl : ∀ element, related element element) (nodes : List Node) :
    PairedAll related nodes nodes := by
  cases nodes with
  | nil => trivial
  | cons node rest => exact ⟨paired_refl refl node, pairedAll_refl refl rest⟩

end

mutual

theorem Paired.elements {node other : Node} (paired : Paired related node other) :
    List.Forall₂ related node.elements other.elements := by
  cases node with
  | element head children =>
      cases other with
      | element _ _ => exact .cons paired.1 paired.2.elementsAll
      | text _ | comment _ => cases paired
  | text _ | comment _ =>
      cases other with
      | element _ _ => cases paired
      | text _ | comment _ => exact .nil

theorem PairedAll.elementsAll {nodes others : List Node}
    (paired : PairedAll related nodes others) :
    List.Forall₂ related (elementsAll nodes) (elementsAll others) := by
  cases nodes with
  | nil =>
      cases others with
      | nil => exact .nil
      | cons _ _ => cases paired
  | cons node rest =>
      cases others with
      | nil => cases paired
      | cons other others => exact List.rel_append paired.1.elements paired.2.elementsAll

end

/-! ## Changed pairs -/

section

variable {change second : Element → Element} {changed : Element → Element → Prop}

mutual

theorem Paired.mapElements
    (keeps : ∀ head other, related head other → changed (change head) (second other))
    {node other : Node} (paired : Paired related node other) :
    Paired changed (mapElements change node) (mapElements second other) := by
  cases node with
  | element head children =>
      cases other with
      | element _ _ => exact ⟨keeps _ _ paired.1, paired.2.mapElementsAll keeps⟩
      | text _ | comment _ => cases paired
  | text _ =>
      cases other with
      | text _ => exact paired
      | element _ _ | comment _ => cases paired
  | comment _ =>
      cases other with
      | comment _ => exact paired
      | element _ _ | text _ => cases paired

theorem PairedAll.mapElementsAll
    (keeps : ∀ head other, related head other → changed (change head) (second other))
    {nodes others : List Node} (paired : PairedAll related nodes others) :
    PairedAll changed (mapElementsAll change nodes) (mapElementsAll second others) := by
  cases nodes with
  | nil =>
      cases others with
      | nil => trivial
      | cons _ _ => cases paired
  | cons node rest =>
      cases others with
      | nil => cases paired
      | cons other others => exact ⟨paired.1.mapElements keeps, paired.2.mapElementsAll keeps⟩

end

end

section

variable {change : Element → Element → Element} {first second : Element → Element}

mutual

theorem Paired.beside_mapElements
    (agrees : ∀ head other, related head other → change other (first head) = second other)
    {node other : Node} (paired : Paired related node other) :
    beside change other (mapElements first node) = mapElements second other := by
  cases node with
  | element head children =>
      cases other with
      | element _ _ =>
          simp only [Node.mapElements, beside, agrees _ _ paired.1,
            paired.2.besideAll_mapElementsAll agrees]
      | text _ | comment _ => cases paired
  | text _ =>
      cases other with
      | text _ => exact congrArg Node.text paired
      | element _ _ | comment _ => cases paired
  | comment _ =>
      cases other with
      | comment _ => exact congrArg Node.comment paired
      | element _ _ | text _ => cases paired

/-- A changed document beside its pair: what the comparison makes of each changed element can be
a change of the element that it is paired with. -/
theorem PairedAll.besideAll_mapElementsAll
    (agrees : ∀ head other, related head other → change other (first head) = second other)
    {nodes others : List Node} (paired : PairedAll related nodes others) :
    besideAll change others (mapElementsAll first nodes) = mapElementsAll second others := by
  cases nodes with
  | nil =>
      cases others with
      | nil => rfl
      | cons _ _ => cases paired
  | cons node rest =>
      cases others with
      | nil => cases paired
      | cons other others =>
          simp only [Node.mapElementsAll, besideAll, paired.1.beside_mapElements agrees,
            paired.2.besideAll_mapElementsAll agrees]

end

end

end HtmlConformance.Node
