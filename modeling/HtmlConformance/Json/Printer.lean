import HtmlConformance.Json.Text

namespace HtmlConformance.Json

/-! Values as text, one item or member to a line, indented by two blanks a level. Empty
arrays and objects stay on one line. -/

namespace Value

def lineBreak (level : Nat) : List Char := '\n' :: List.replicate (2 * level) ' '

/-- The bracket or brace that ends a value, on a line of its own unless it is empty. -/
def ending (level : Nat) (isEmpty : Bool) (close : Char) : List Char :=
  if isEmpty then [close] else lineBreak level ++ [close]

def separator (isLast : Bool) : List Char := if isLast then [] else [',']

mutual

def chars (level : Nat) : Value → List Char
  | null => ['n', 'u', 'l', 'l']
  | bool true => ['t', 'r', 'u', 'e']
  | bool false => ['f', 'a', 'l', 's', 'e']
  | number value => value.text.toList
  | text value => Text.written value
  | array items => '[' :: itemChars (level + 1) items ++ ending level items.isEmpty ']'
  | object members =>
      '{' :: memberChars (level + 1) members ++ ending level members.isEmpty '}'

def itemChars (level : Nat) : List Value → List Char
  | [] => []
  | item :: rest =>
      lineBreak level ++ chars level item ++ separator rest.isEmpty ++ itemChars level rest

def memberChars (level : Nat) : List (String × Value) → List Char
  | [] => []
  | (key, value) :: rest =>
      lineBreak level ++ Text.written key ++ [':', ' '] ++ chars level value ++
        separator rest.isEmpty ++ memberChars level rest

end

def pretty (value : Value) : String := String.ofList (value.chars 0)

end Value

end HtmlConformance.Json
