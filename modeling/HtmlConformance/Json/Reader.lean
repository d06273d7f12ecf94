import HtmlConformance.Json.Shape

namespace HtmlConformance.Json

/-! Readers take what they need from the front of a text and leave the rest. The first
fault in the order of the text is the one that counts. -/

/-- A reader gives a result and the rest of the text, or the fault it met. -/
def Reader (α : Type) : Type := List Char → Except Fault (α × List Char)

namespace Reader

variable {α β σ : Type}

protected def pure (result : α) : Reader α := fun text => .ok (result, text)

protected def bind (first : Reader α) (next : α → Reader β) : Reader β := fun text =>
  match first text with
  | .ok (result, rest) => next result rest
  | .error fault => .error fault

instance : Monad Reader where
  pure := Reader.pure
  bind := Reader.bind

def fail (fault : Fault) : Reader α := fun _ => .error fault

def ofShape : Except ShapeError α → Reader α
  | .ok result => Reader.pure result
  | .error error => fail (.shape error)

def isBlank (char : Char) : Bool :=
  char = ' ' || char = '\t' || char = '\n' || char = '\r'

def peek : Reader (Option Char) := fun text =>
  let rest := text.dropWhile isBlank
  .ok (rest.head?, rest)

def advance : Reader Unit := fun text => .ok ((), text.tail)

def word : List Char → Reader Unit
  | [] => Reader.pure ()
  | letter :: letters => fun text =>
      match text with
      | [] => .error .truncated
      | char :: rest => if char = letter then word letters rest else .error .malformed

def colon : Reader Unit := do
  match ← peek with
  | some ':' => advance
  | some _ => fail .malformed
  | none => fail .truncated

def finish : Reader Unit := do
  match ← peek with
  | some _ => fail .malformed
  | none => return ()

def closeArray : Reader Unit := do
  match ← peek with
  | some ']' => advance
  | some _ => fail .malformed
  | none => fail .truncated

/-- Whether another item of an array follows. Where none does, the bracket is left. -/
def anotherItem (first : Bool) : Reader Bool := do
  match ← peek with
  | none => fail .truncated
  | some ']' => return false
  | some ',' =>
      if first then
        return true
      else
        advance
        match ← peek with
        | none => fail .truncated
        | some ']' => fail .malformed
        | some _ => return true
  | some _ => if first then return true else fail .malformed

end Reader

end HtmlConformance.Json
