import HtmlConformance.Decimal.Shortest

namespace HtmlConformance.Json

/-! JSON values as written: members of an object keep their order and may repeat a key. -/

/-- A number: a whole number that fits 64 bits, or a decimal `± significand * 10 ^ exponent`
that is read as a double. -/
inductive Number where
  | integer (value : Int)
  | decimal (negative : Bool) (significand : Nat) (exponent : Int)
  deriving DecidableEq

namespace Number

/-- A double divided by a power of ten, by no more than `10 ^ 308` at a time. -/
def divide (value : Float) (power : Nat) : Float :=
  if power ≤ 308 then
    value / Float.ofScientific 1 false power
  else if value == 0 then
    value
  else
    divide (value / Float.ofScientific 1 false 308) (power - 308)
termination_by power

/-- The double that a decimal is read as, without its sign; nothing if it is too large.
The significand is rounded first and the power of ten is applied to the rounded one. -/
def magnitude? (significand : Nat) (exponent : Int) : Option Float :=
  let value := (UInt64.ofNat significand).toFloat
  if exponent < 0 then
    some (divide value exponent.natAbs)
  else if significand = 0 then
    some value
  else if exponent ≤ 308 then
    let product := value * Float.ofScientific 1 false exponent.toNat
    if product.isInf then none else some product
  else
    none

def inRange : Number → Bool
  | integer _ => true
  | decimal _ significand exponent => (magnitude? significand exponent).isSome

def text : Number → String
  | integer value => toString value
  | decimal negative significand exponent =>
      let size := (magnitude? significand exponent).getD 0
      (if negative then "-" else "") ++ Decimal.ofFloat size

end Number

inductive Value where
  | null
  | bool (value : Bool)
  | number (value : Number)
  | text (value : String)
  | array (items : List Value)
  | object (members : List (String × Value))

end HtmlConformance.Json
