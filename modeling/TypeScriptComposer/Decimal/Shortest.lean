/-!
# Shortest decimals

A double stands for every real number that rounds to it. Its shortest decimal is the number among
these with the fewest digits; of several it is the one nearest to the double, and of two that are
equally near the greater one.

Everything is computed on natural numbers: a finite positive double is `mantissa · 2 ^ exponent`,
and a decimal is `digits · 10 ^ exponent`.
-/

set_option autoImplicit false

namespace TypeScriptComposer

structure Binary where
  mantissa : Nat
  exponent : Int
  /-- Whether the next smaller double is only half as far away as the next greater one. -/
  closerBelow : Bool
  deriving DecidableEq

structure Decimal where
  digits : Nat
  exponent : Int
  deriving DecidableEq

inductive Double where
  | nan
  | infinity (negative : Bool)
  | zero (negative : Bool)
  | finite (negative : Bool) (value : Binary)
  deriving DecidableEq

def Double.ofBits (bits : UInt64) : Double :=
  let n := bits.toNat
  let negative := n ≥ Nat.pow 2 63
  let exponent : Nat := n / Nat.pow 2 52 % Nat.pow 2 11
  let fraction := n % Nat.pow 2 52
  if exponent = 2047 then if fraction = 0 then .infinity negative else .nan
  else if exponent = 0 then
    if fraction = 0 then .zero negative else .finite negative ⟨fraction, -1074, false⟩
  else
    .finite negative
      ⟨Nat.pow 2 52 + fraction, (exponent : Int) - 1075, fraction = 0 && exponent > 1⟩

namespace Binary

/-- The numbers that round to `b`, as fractions with a common denominator: the value, the lower
and the upper end. The ends round to `b` when its mantissa is even. -/
structure Interval where
  denominator : Nat
  value : Nat
  lower : Nat
  upper : Nat
  endsIncluded : Bool

def interval (b : Binary) : Interval :=
  let up := Nat.pow 2 (b.exponent - 2).toNat
  { denominator := Nat.pow 2 (2 - b.exponent).toNat
    value := 4 * b.mantissa * up
    lower := (4 * b.mantissa - if b.closerBelow then 1 else 2) * up
    upper := (4 * b.mantissa + 2) * up
    endsIncluded := b.mantissa % 2 = 0 }

end Binary

namespace Binary.Interval

/-- Whether `numerator / scale`, in units of the denominator, rounds to the double. -/
def holds (i : Interval) (scale numerator : Nat) : Bool :=
  if i.endsIncluded then i.lower * scale ≤ numerator && numerator ≤ i.upper * scale
  else i.lower * scale < numerator && numerator < i.upper * scale

def onGrid? (i : Interval) (exponent : Int) : Option Nat :=
  let scale := Nat.pow 10 (-exponent).toNat
  let step := Nat.pow 10 exponent.toNat * i.denominator
  let value := i.value * scale
  let below := value / step
  let above := below + 1
  let nearer := if 2 * value < (below + above) * step then below else above
  let farther := if nearer = below then above else below
  if i.holds scale (nearer * step) then some nearer
  else if i.holds scale (farther * step) then some farther
  else none

end Binary.Interval

/-- The exponents of the grids that are tried, the coarsest first. No double is above `10 ^ 309`,
and the interval of every double holds a multiple of `10 ^ -324`. -/
def gridExponents : List Int := (List.range 634).map fun i : Nat => (309 : Int) - i

def Binary.shortest (b : Binary) : Decimal :=
  let i := b.interval
  (gridExponents.findSome? fun exponent => (i.onGrid? exponent).map (⟨·, exponent⟩)).getD ⟨0, 0⟩

/-- A decimal without an exponent: zeros fill the places up to the point, and a number below one
has a zero in front of it. -/
def Decimal.positional (d : Decimal) : String :=
  let digits := Nat.toDigits 10 d.digits
  if 0 ≤ d.exponent then String.ofList (digits ++ List.replicate d.exponent.toNat '0')
  else
    let places := (-d.exponent).toNat
    let padded := List.replicate (places + 1 - digits.length) '0' ++ digits
    String.ofList (padded.take (padded.length - places) ++
      '.' :: padded.drop (padded.length - places))

/-- The text of a double. Whole numbers have no point, and zero keeps its sign. -/
def Double.text : Double → String
  | .nan => "NaN"
  | .infinity negative => (if negative then "-" else "") ++ "inf"
  | .zero negative => (if negative then "-" else "") ++ "0"
  | .finite negative value => (if negative then "-" else "") ++ value.shortest.positional

end TypeScriptComposer
