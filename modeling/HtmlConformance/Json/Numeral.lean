import HtmlConformance.Json.Text

namespace HtmlConformance.Json

/-! Numbers of JSON as written, and the numbers they stand for. A significand takes
digits as long as it fits 64 bits; later digits of the whole part only scale it, and later
digits of the fraction are dropped. -/

structure Numeral where
  negative : Bool
  whole : List Char
  fraction : List Char
  exponent : Option Int
  deriving DecidableEq

namespace Numeral

def digitValue (digit : Char) : Nat := digit.toNat - '0'.toNat

/-- The fault of a numeral that breaks off before this text: where the text goes on, it is
malformed; where it ends, a value that is wanted ends too early. -/
def breakOff (care : Care) (rest : List Char) : Fault :=
  if care = .strict && rest.isEmpty then .truncated else .malformed

def digits (care : Care) : Reader (List Char) := fun text =>
  match text.span Char.isDigit with
  | ([], rest) => .error (breakOff care rest)
  | (found, rest) => .ok (found, rest)

def wholePart (care : Care) : Reader (List Char) := do
  match ← digits care with
  | '0' :: _ :: _ => .fail .malformed
  | found => return found

def fractionPart (care : Care) : Reader (List Char)
  | '.' :: rest => digits care rest
  | text => .ok ([], text)

def exponentSign : Reader Bool
  | '-' :: rest => .ok (true, rest)
  | '+' :: rest => .ok (false, rest)
  | text => .ok (false, text)

def exponentDigits (care : Care) : Reader Int := do
  let negative ← exponentSign
  let found ← digits care
  let size : Nat := found.foldl (fun number digit => number * 10 + digitValue digit) 0
  return if negative then -(size : Int) else size

def exponentPart (care : Care) : Reader (Option Int) := fun text =>
  match text with
  | 'e' :: rest | 'E' :: rest => (some <$> exponentDigits care) rest
  | _ => .ok (none, text)

def read (care : Care) (negative : Bool) : Reader Numeral := do
  let whole ← wholePart care
  let fraction ← fractionPart care
  let exponent ← exponentPart care
  return { negative, whole, fraction, exponent }

/-! ## Value -/

/-- Add digits to a significand as long as it stays below `2 ^ 64`. The digits that did
not fit are left. -/
def accumulate (significand : Nat) : List Char → Nat × List Char
  | [] => (significand, [])
  | digit :: rest =>
      let longer := significand * 10 + digitValue digit
      if longer < UInt64.size then accumulate longer rest else (significand, digit :: rest)

/-- The number that a numeral stands for. A whole number that fits 64 bits is exact, apart
from zero with a minus sign. -/
def number (numeral : Numeral) : Number :=
  let (whole, scaling) := accumulate 0 numeral.whole
  let isWhole := numeral.fraction.isEmpty && numeral.exponent.isNone && scaling.isEmpty
  if isWhole && !numeral.negative then
    .integer whole
  else if isWhole && 0 < whole && 2 * whole ≤ UInt64.size then
    .integer (-(whole : Int))
  else
    let (significand, dropped) := accumulate whole numeral.fraction
    let places : Int := (numeral.fraction.length : Int) - dropped.length
    .decimal numeral.negative significand
      ((scaling.length : Int) - places + numeral.exponent.getD 0)

end Numeral

namespace Number

def read (care : Care) (negative : Bool) : Reader Number := do
  let numeral ← Numeral.read care negative
  let number := numeral.number
  if care = .strict && !number.inRange then
    .fail .malformed
  else
    return number

end Number

end HtmlConformance.Json
