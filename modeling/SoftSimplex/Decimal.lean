/-!
Rounded numbers as decimal text: the fewest digits that read back as the same number, and of those
the nearest. Numbers are written positionally, whole ones without a decimal point.
-/

namespace SoftSimplex

namespace Decimal

/-- A positive number `significand * 2 ^ exponent` and the gap to its lower neighbour: a power of two
has half the gap below that it has above. -/
structure Magnitude where
  significand : Nat
  exponent : Int
  narrowBelow : Bool

structure Scaled where
  digits : Nat
  exponent : Int

def power (base : Nat) (exponent : Int) : Nat := base.pow exponent.toNat

def Magnitude.ofFields (exponent fraction : Nat) : Magnitude :=
  if exponent = 0 then ⟨fraction, -1074, false⟩
  else ⟨fraction + power 2 52, exponent - 1075, fraction = 0 ∧ 1 < exponent⟩

def Magnitude.quartersLe (number : Magnitude) (quarters : Nat) (decimal : Scaled) : Bool :=
  quarters * power 2 number.exponent * power 10 (-decimal.exponent) ≤
    4 * decimal.digits * power 10 decimal.exponent * power 2 (-number.exponent)

def Magnitude.quartersGe (number : Magnitude) (quarters : Nat) (decimal : Scaled) : Bool :=
  4 * decimal.digits * power 10 decimal.exponent * power 2 (-number.exponent) ≤
    quarters * power 2 number.exponent * power 10 (-decimal.exponent)

def Magnitude.readsBack (number : Magnitude) (decimal : Scaled) : Bool :=
  let lower := 4 * number.significand - (if number.narrowBelow then 1 else 2)
  let upper := 4 * number.significand + 2
  if number.significand % 2 = 0 then
    number.quartersLe lower decimal && number.quartersGe upper decimal
  else !number.quartersGe lower decimal && !number.quartersLe upper decimal

def Magnitude.floorOn (number : Magnitude) (grid : Int) : Nat :=
  number.significand * power 2 number.exponent * power 10 (-grid) /
    (power 2 (-number.exponent) * power 10 grid)

def Magnitude.isNearer (number : Magnitude) (below : Scaled) : Bool :=
  2 * number.significand * power 2 number.exponent * power 10 (-below.exponent) <
    (2 * below.digits + 1) * power 10 below.exponent * power 2 (-number.exponent)

def Magnitude.onGrid? (number : Magnitude) (grid : Int) : Option Scaled :=
  let below : Scaled := ⟨number.floorOn grid, grid⟩
  let above : Scaled := ⟨below.digits + 1, grid⟩
  match number.readsBack below, number.readsBack above with
  | true, true => some (if number.isNearer below then below else above)
  | true, false => some below
  | false, true => some above
  | false, false => none

def Magnitude.search (number : Magnitude) : Nat → Int → Option Scaled
  | 0, _ => none
  | count + 1, grid =>
    match number.onGrid? grid with
    | some found => some found
    | none => number.search count (grid - 1)

def Magnitude.scale (number : Magnitude) : Nat → Int → Int
  | 0, guess => guess
  | count + 1, guess =>
    if number.floorOn guess = 0 then guess else number.scale count (guess + 1)

def Magnitude.exact (number : Magnitude) : Scaled :=
  ⟨number.significand * power 2 number.exponent * power 5 (-number.exponent),
    min number.exponent 0⟩

def Magnitude.shortest (number : Magnitude) : Scaled :=
  let bits : Int := number.significand.log2 + number.exponent
  let guess : Int := bits * 30103 / 100000
  let scale := number.scale 3 guess
  (number.search 17 (scale - 1)).getD number.exact

def trim : Nat → Scaled → Scaled
  | 0, decimal => decimal
  | count + 1, decimal =>
    if decimal.exponent < 0 ∧ decimal.digits % 10 = 0 then
      trim count ⟨decimal.digits / 10, decimal.exponent + 1⟩
    else decimal

def zeros (count : Nat) : String := String.ofList (List.replicate count '0')

def Scaled.text (decimal : Scaled) : String :=
  let digits := toString decimal.digits
  if 0 ≤ decimal.exponent then digits ++ zeros decimal.exponent.toNat
  else
    let places := (-decimal.exponent).toNat
    let padded := zeros (places + 1 - digits.length) ++ digits
    let whole := padded.toList.take (padded.length - places)
    let fraction := padded.toList.drop (padded.length - places)
    String.ofList whole ++ "." ++ String.ofList fraction

def magnitudeText (exponent fraction : Nat) : String :=
  if exponent = 0 ∧ fraction = 0 then "0"
  else (trim 17 (Magnitude.ofFields exponent fraction).shortest).text

end Decimal

def decimalText (value : Float) : String :=
  let bits := value.toBits.toNat
  let exponent := bits / Decimal.power 2 52 % Decimal.power 2 11
  let fraction := bits % Decimal.power 2 52
  let sign := if bits / Decimal.power 2 63 = 1 then "-" else ""
  if exponent = 2047 then if fraction = 0 then sign ++ "inf" else "NaN"
  else sign ++ Decimal.magnitudeText exponent fraction

end SoftSimplex
