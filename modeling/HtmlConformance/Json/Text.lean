import HtmlConformance.Json.Reader

namespace HtmlConformance.Json

/-! Strings of JSON. A character above the basic plane may be written as two escapes; one
of such a pair alone is no character, and is let pass only where the string is skipped. -/

/-- What to do with values: read them, or pass over them. A value that is passed over has
to be well formed, while its numbers may be too large and its escapes need not name
characters. -/
inductive Care where
  | strict
  | lax
  deriving DecidableEq

namespace Text

def hexValue? (char : Char) : Option Nat :=
  if '0' ≤ char ∧ char ≤ '9' then some (char.toNat - '0'.toNat)
  else if 'a' ≤ char ∧ char ≤ 'f' then some (char.toNat - 'a'.toNat + 10)
  else if 'A' ≤ char ∧ char ≤ 'F' then some (char.toNat - 'A'.toNat + 10)
  else none

def hexNumber? (first second third fourth : Char) : Option Nat := do
  let high ← hexValue? first
  let upper ← hexValue? second
  let lower ← hexValue? third
  let low ← hexValue? fourth
  return ((high * 16 + upper) * 16 + lower) * 16 + low

/-- Four hexadecimal digits. A text with fewer than four bytes left ends too early. -/
def hexUnit : Reader Nat
  | first :: second :: third :: fourth :: rest =>
      match hexNumber? first second third fourth with
      | some unit => .ok (unit, rest)
      | none => .error .malformed
  | short =>
      let bytes := short.foldl (fun bytes char => bytes + char.utf8Size) 0
      if bytes < 4 then .error .truncated else .error .malformed

def isHighHalf (unit : Nat) : Bool := 0xD800 ≤ unit && unit ≤ 0xDBFF

def isLowHalf (unit : Nat) : Bool := 0xDC00 ≤ unit && unit ≤ 0xDFFF

def joinHalves (high low : Nat) : Char :=
  Char.ofNat ((high - 0xD800) * 0x400 + (low - 0xDC00) + 0x10000)

def lowHalf : Reader Nat
  | [] => .error .truncated
  | ['\\'] => .error .truncated
  | '\\' :: 'u' :: rest =>
      match hexUnit rest with
      | .ok (unit, rest) => if isLowHalf unit then .ok (unit, rest) else .error .malformed
      | .error fault => .error fault
  | _ => .error .malformed

def numbered (care : Care) : Reader Char := do
  let unit ← hexUnit
  if care = .strict && isLowHalf unit then
    .fail .malformed
  else if care = .strict && isHighHalf unit then
    return joinHalves unit (← lowHalf)
  else
    return Char.ofNat unit

def escaped? (letter : Char) : Option Char :=
  if letter = '"' then some '"'
  else if letter = '\\' then some '\\'
  else if letter = '/' then some '/'
  else if letter = 'b' then some '\x08'
  else if letter = 'f' then some '\x0c'
  else if letter = 'n' then some '\n'
  else if letter = 'r' then some '\r'
  else if letter = 't' then some '\t'
  else none

def escape (care : Care) : Reader Char
  | [] => .error .truncated
  | 'u' :: rest => numbered care rest
  | letter :: rest =>
      match escaped? letter with
      | some char => .ok (char, rest)
      | none => .error .malformed

/-- The characters up to the closing quote, put in front of those read before, last
first. -/
def charsFrom (care : Care) : (fuel : Nat) → (before : List Char) → Reader (List Char)
  | 0, _ => .fail .truncated
  | fuel + 1, before => fun text =>
      match text with
      | [] => .error .truncated
      | '"' :: rest => .ok (before.reverse, rest)
      | '\\' :: rest =>
          match escape care rest with
          | .ok (char, rest) => charsFrom care fuel (char :: before) rest
          | .error fault => .error fault
      | char :: rest =>
          if char.toNat < 0x20 then .error .malformed
          else charsFrom care fuel (char :: before) rest

/-- A string, after its opening quote. No character of it is shorter than one of the
text. -/
def read (care : Care) : Reader String := fun text =>
  match charsFrom care (text.length + 1) [] text with
  | .ok (chars, rest) => .ok (String.ofList chars, rest)
  | .error fault => .error fault

/-! ## Writing -/

def hexDigit (number : Nat) : Char := Nat.digitChar (number % 16)

/-- A character as it is written in a string: quotes, backslashes and controls are
escaped, and nothing else is. -/
def writtenChar (char : Char) : List Char :=
  if char = '"' then ['\\', '"']
  else if char = '\\' then ['\\', '\\']
  else if char = '\x08' then ['\\', 'b']
  else if char = '\x0c' then ['\\', 'f']
  else if char = '\n' then ['\\', 'n']
  else if char = '\r' then ['\\', 'r']
  else if char = '\t' then ['\\', 't']
  else if char.toNat < 0x20 then
    ['\\', 'u', '0', '0', hexDigit (char.toNat / 16), hexDigit char.toNat]
  else [char]

def written (text : String) : List Char :=
  '"' :: text.toList.flatMap writtenChar ++ ['"']

end Text

end HtmlConformance.Json
