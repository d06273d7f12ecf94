namespace HtmlConformance.Decimal

/-! The shortest decimal text of a double. Of all decimals that read back as the double,
one with the fewest digits is taken, and of these the nearest; an exact tie goes to the
even digit. -/

/-- A positive finite double as `mantissa * 2 ^ exponent`. Where the double below is
nearer than the one above, the interval of decimals that read back is narrower below. -/
structure Binary where
  mantissa : Nat
  exponent : Int
  narrowBelow : Bool

namespace Binary

def ofBits (bits : Nat) : Binary :=
  let field : Nat := (bits >>> 52) % 2048
  let fraction : Nat := bits % (1 <<< 52)
  if field = 0 then
    { mantissa := fraction, exponent := -1074, narrowBelow := false }
  else
    { mantissa := fraction + 1 <<< 52, exponent := (field : Int) - 1075
      narrowBelow := fraction == 0 && field > 1 }

/-- The value times `4 / 10 ^ scale` as a fraction. Four units are one mantissa step. -/
def scaled (binary : Binary) (scale : Int) : Nat × Nat :=
  ((binary.mantissa * 4) <<< binary.exponent.toNat * Nat.pow 10 (-scale).toNat,
    1 <<< (-binary.exponent).toNat * Nat.pow 10 scale.toNat)

def readsBack (binary : Binary) (scale : Int) (digits : Nat) : Bool :=
  let (value, unit) := binary.scaled scale
  let step := 1 <<< binary.exponent.toNat * Nat.pow 10 (-scale).toNat
  let low := value - (if binary.narrowBelow then step else 2 * step)
  let high := value + 2 * step
  let point := digits * 4 * unit
  if binary.mantissa % 2 = 0 then
    low ≤ point && point ≤ high
  else
    low < point && point < high

def digitsAt? (binary : Binary) (scale : Int) : Option Nat :=
  let (value, unit) := binary.scaled scale
  let below := value / (4 * unit)
  let above := below + 1
  let toBelow := value - below * 4 * unit
  let toAbove := above * 4 * unit - value
  match 0 < below && binary.readsBack scale below, binary.readsBack scale above with
  | true, true =>
      if toBelow < toAbove || (toBelow = toAbove && below % 2 = 0) then some below
      else some above
  | true, false => some below
  | false, true => some above
  | false, false => none

def shortestFrom (binary : Binary) : (tries : Nat) → (scale : Int) → Nat × Int
  | 0, scale => (0, scale)
  | tries + 1, scale =>
      match binary.digitsAt? scale with
      | some digits => (digits, scale)
      | none => binary.shortestFrom tries (scale - 1)

/-- The digits of the shortest decimal, and the power of ten that they count. The first
scale tried is above the value, and seventeen digits always suffice. -/
def shortest (binary : Binary) : Nat × Int :=
  let above := (binary.exponent + (binary.mantissa.log2 : Int) + 1) * 30103 / 100000 + 1
  binary.shortestFrom 22 above

end Binary

def exponentPart (power : Int) : List Char :=
  'e' :: (if power < 0 then '-' else '+') :: Nat.toDigits 10 power.natAbs

/-- Digits with a point or an exponent: plain up to `10 ^ 16` and down to `10 ^ -5`, and
with an exponent beyond. -/
def layout (digits : List Char) (scale : Int) : List Char :=
  let count : Int := digits.length
  let point := count + scale
  if 0 ≤ scale && point ≤ 16 then
    digits ++ List.replicate scale.toNat '0' ++ ['.', '0']
  else if 0 < point && point ≤ 16 then
    digits.take point.toNat ++ '.' :: digits.drop point.toNat
  else if -5 < point && point ≤ 0 then
    '0' :: '.' :: List.replicate (-point).toNat '0' ++ digits
  else
    let fraction := match digits.tail with
      | [] => []
      | rest => '.' :: rest
    digits.take 1 ++ fraction ++ exponentPart (point - 1)

def ofFloat (value : Float) : String :=
  let bits := value.toBits.toNat
  let sign := if bits >>> 63 = 1 then ['-'] else []
  let magnitude := bits % (1 <<< 63)
  let text :=
    if magnitude = 0 then
      ['0', '.', '0']
    else
      let (digits, scale) := (Binary.ofBits magnitude).shortest
      layout (Nat.toDigits 10 digits) scale
  String.ofList (sign ++ text)

end HtmlConformance.Decimal
