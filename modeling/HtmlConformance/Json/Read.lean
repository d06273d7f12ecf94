import HtmlConformance.Json.Numeral

namespace HtmlConformance.Json

/-! Reading values. Arrays and objects nest to a limited depth; the reader of one level
is built from the reader of the level below. -/

def nestingLimit : Nat := 127

namespace Reader

variable {α σ : Type}

def text (care : Care) : Reader String := do
  advance
  Text.read care

def nextKey (care : Care) (first : Bool) : Reader (Option String) := do
  match ← peek with
  | none => fail .truncated
  | some '}' => return none
  | some ',' =>
      if first then
        fail .malformed
      else
        advance
        match ← peek with
        | none => fail .truncated
        | some '"' => some <$> text care
        | some _ => fail .malformed
  | some '"' => if first then some <$> text care else fail .malformed
  | some _ => fail .malformed

/-- Go through the members of an object: the step is given what the members before left
and a key, and reads the colon and the value. -/
def foldMembers (care : Care) (step : σ → String → Reader σ) :
    (fuel : Nat) → (first : Bool) → σ → Reader σ
  | 0, _, _ => fail .truncated
  | fuel + 1, first, state => do
      match ← nextKey care first with
      | none =>
          advance
          return state
      | some key =>
          let next ← step state key
          foldMembers care step fuel false next

def members (care : Care) (start : σ) (step : σ → String → Reader σ) : Reader σ :=
  fun rest => foldMembers care step (rest.length + 1) true start rest

def foldItems (item : Reader α) : (fuel : Nat) → (first : Bool) → (before : List α) →
    Reader (List α)
  | 0, _, _ => fail .truncated
  | fuel + 1, first, before => do
      if ← anotherItem first then
        let next ← item
        foldItems item fuel false (next :: before)
      else
        advance
        return before.reverse

def items (item : Reader α) (first : Bool) : Reader (List α) :=
  fun rest => foldItems item (rest.length + 1) first [] rest

def nested (inner : Option (Reader α)) : Reader (Reader α) :=
  match inner with
  | some reader => return reader
  | none => fail .malformed

def scalar (care : Care) (char : Char) : Reader Value :=
  if char = '"' then
    .text <$> text care
  else if char = 'n' then do
    advance
    word ['u', 'l', 'l']
    return .null
  else if char = 't' then do
    advance
    word ['r', 'u', 'e']
    return .bool true
  else if char = 'f' then do
    advance
    word ['a', 'l', 's', 'e']
    return .bool false
  else if char = '-' then do
    advance
    .number <$> Number.read care true
  else if char.isDigit then
    .number <$> Number.read care false
  else
    fail .malformed

def level (care : Care) (inner : Option (Reader Value)) : Reader Value := do
  match ← peek with
  | none => fail .truncated
  | some '[' =>
      let item ← nested inner
      advance
      .array <$> items item true
  | some '{' =>
      let item ← nested inner
      advance
      let found ← members care [] fun before key => do
        colon
        let value ← item
        return (key, value) :: before
      return .object found.reverse
  | some char => scalar care char

def value (care : Care) : (depth : Nat) → Reader Value
  | 0 => level care none
  | depth + 1 => fun rest => level care (some (value care depth)) rest

/-- Pass over a value of any depth, which is less than its length. -/
def skip : Reader Unit := fun rest => (((fun _ => ()) <$> value .lax rest.length) : Reader Unit) rest

/-- Report a value of another kind than wanted; of an array or object only the first
character is looked at. -/
def wrongType (expected : String) : Reader α := do
  let found ← (do
    match ← peek with
    | none => fail .truncated
    | some '[' => return Found.sequence
    | some '{' => return Found.map
    | some char => Value.found <$> scalar .strict char)
  fail (.shape (.wrongType found expected))

end Reader

end HtmlConformance.Json
