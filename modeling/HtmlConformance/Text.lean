namespace HtmlConformance.Text

/-! Text rules that the whole library shares. Names and keywords compare without
regard to the case of ASCII letters; no other character is ever folded. -/

def folded (text : String) : String := text.map Char.toLower

def alike (left right : String) : Bool := folded left == folded right

def isOneOf (value : String) (keywords : List String) : Bool :=
  keywords.any (alike value)

def identifierChars (startsPart : Bool) : List Char → List Char
  | [] => []
  | char :: rest =>
      if char = '-' || char = '_' || char = ':' then
        identifierChars true rest
      else
        (if startsPart then char.toUpper else char) :: identifierChars false rest

/-- The identifier form of a name: its parts between `-`, `_` and `:` written
together, each with a capital, so that `http-equiv` gives `HttpEquiv`. -/
def identifier (name : String) : String :=
  String.ofList (identifierChars true name.toList)

theorem alike_iff (left right : String) :
    alike left right = true ↔ folded left = folded right := by
  simp [alike]

@[simp] theorem alike_self (text : String) : alike text text = true := by
  simp [alike]

theorem alike_comm (left right : String) : alike left right = alike right left := by
  simp only [alike, Bool.beq_comm]

theorem alike_trans {left middle right : String}
    (first : alike left middle = true) (second : alike middle right = true) :
    alike left right = true := by
  rw [alike_iff] at *
  exact first.trans second

end HtmlConformance.Text
