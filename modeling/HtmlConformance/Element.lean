import HtmlConformance.Attribute

namespace HtmlConformance

/-! An element with its ordered attribute list. Names compare in any letter case, and
where a name is repeated the first attribute with it is the one that counts: it is read,
overwritten and removed, while later ones stay where they are. -/

def updateFirst {α : Type} (test : α → Bool) (change : α → α) : List α → List α
  | [] => []
  | entry :: rest =>
      if test entry then change entry :: rest else entry :: updateFirst test change rest

structure Element where
  tag : String
  attributes : List Attribute := []
  deriving DecidableEq

namespace Element

def position? (element : Element) (name : String) : Option Nat :=
  element.attributes.findIdx? fun attr => attr.isNamed name

def find? (element : Element) (name : String) : Option Attribute :=
  element.attributes.find? fun attr => attr.isNamed name

/-- The value of the first attribute with this name; a bare one reads as empty. -/
def get? (element : Element) (name : String) : Option String :=
  (element.find? name).map fun attr => attr.value.getD ""

def has (element : Element) (name : String) : Bool :=
  element.attributes.any fun attr => attr.isNamed name

def names (element : Element) : List String := element.attributes.map Attribute.name

def id? (element : Element) : Option String := element.get? "id"

def push (element : Element) (attr : Attribute) : Element :=
  { element with attributes := element.attributes ++ [attr] }

def modify (element : Element) (name : String) (change : Attribute → Attribute) : Element :=
  { element with
    attributes := updateFirst (fun attr => attr.isNamed name) change
      element.attributes }

/-- Overwrite the value of the first attribute with this name, or append a new one. -/
def set (element : Element) (name value : String) : Element :=
  if element.has name then
    element.modify name fun attr => { attr with value := some value }
  else
    element.push (.valued name value)

/-- Take the first attribute with this name out of the list, and hand it back. -/
def remove (element : Element) (name : String) : Option Attribute × Element :=
  match element.position? name with
  | none => (none, element)
  | some place =>
      (element.attributes[place]?,
        { element with attributes := element.attributes.eraseIdx place })

end Element

end HtmlConformance
