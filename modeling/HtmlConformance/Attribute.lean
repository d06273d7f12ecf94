import HtmlConformance.Text

namespace HtmlConformance

/-! One attribute as it stands on one element. -/

inductive FragmentLanguage where
  | asp
  | php
  | jste
  deriving DecidableEq

namespace FragmentLanguage

def all : List FragmentLanguage := [asp, php, jste]

def name : FragmentLanguage → String
  | asp => "asp"
  | php => "php"
  | jste => "jste"

def ofName? (name : String) : Option FragmentLanguage :=
  all.find? fun language => language.name == name

end FragmentLanguage

/-- Template code that stood inside an attribute, without its delimiters. -/
structure Fragment where
  language : FragmentLanguage
  source : String
  deriving DecidableEq

/-- An attribute as written: its name, its value unless it is bare, the quote around the
value, and the template code tied to it. -/
structure Attribute where
  name : String
  value : Option String := none
  delimiter : Char := '"'
  fragment : Option Fragment := none
  deriving DecidableEq

namespace Attribute

def valued (name value : String) : Attribute := { name, value := some value }

def bare (name : String) : Attribute := { name }

def isNamed (attr : Attribute) (name : String) : Bool := Text.alike attr.name name

def isTemplated (attr : Attribute) : Bool := attr.fragment.isSome

def hasValue (attr : Attribute) : Bool := attr.value.any fun value => value != ""

end Attribute

end HtmlConformance
