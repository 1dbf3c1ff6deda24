/-!
# Shortest decimals

A finite double is `significand * 2 ^ exponent`. Every decimal strictly between
the midpoints to its two neighbours reads back as it, and so do the midpoints
themselves when the significand is even. The shortest decimal lies on the
coarsest grid of powers of ten that has a point in that interval, and of the
points there it is the nearest, or the greater of two equally near. All
comparisons are exact.
-/

namespace Metering

/-- The number `digits * 10 ^ exponent`. -/
structure Decimal where
  /-- The decimal digits as a number. -/
  digits : Nat
  /-- The power of ten of the last digit. -/
  exponent : Int
deriving DecidableEq, Repr

/-- The number `significand * 2 ^ exponent`. -/
structure Binary where
  /-- The binary digits as a number. -/
  significand : Nat
  /-- The power of two of the last digit. -/
  exponent : Int
deriving DecidableEq, Repr

namespace Binary

/-- Least power of two of a double. -/
def leastExponent : Int := -1074

/-- The leading bit of a normal significand, which the bit pattern leaves out. -/
def leadingBit : Nat := 4503599627370496

/-- Whether a bit pattern is of a negative number. -/
def isNegative (bits : UInt64) : Bool := 9223372036854775808 ≤ bits.toNat

/-- The magnitude of a finite double, read off its bit pattern. -/
def ofBits (bits : UInt64) : Binary :=
  let fraction : Nat := bits.toNat % leadingBit
  let field : Nat := bits.toNat / leadingBit % 2048
  if field = 0 then ⟨fraction, leastExponent⟩ else ⟨leadingBit + fraction, (field : Int) - 1075⟩

/-- Whether `left * 2 ^ scale` is below the decimal, at it or above it. -/
def compareScaled (left : Nat) (scale : Int) (right : Decimal) : Ordering :=
  compare (left * Nat.pow 2 scale.toNat * Nat.pow 10 (-right.exponent).toNat)
    (right.digits * Nat.pow 10 right.exponent.toNat * Nat.pow 2 (-scale).toNat)

/-- Whether a decimal reads back as this double. -/
def readsBack (double : Binary) (decimal : Decimal) : Bool :=
  let scale := double.exponent - 2
  let closed := double.significand % 2 == 0
  let narrow := double.significand == leadingBit && leastExponent < double.exponent
  let low := 4 * double.significand - if narrow then 1 else 2
  let high := 4 * double.significand + 2
  let aboveLow := compareScaled low scale decimal
  let belowHigh := compareScaled high scale decimal
  (aboveLow == .lt || closed && aboveLow == .eq) &&
    (belowHigh == .gt || closed && belowHigh == .eq)

/-- The largest multiple of `10 ^ exponent` that is not above the double. -/
def gridFloor (double : Binary) (exponent : Int) : Nat :=
  double.significand * Nat.pow 2 double.exponent.toNat * Nat.pow 10 (-exponent).toNat /
    (Nat.pow 10 exponent.toNat * Nat.pow 2 (-double.exponent).toNat)

/-- Whether the double is nearer to a grid point than to the next one. -/
def nearerBelow (double : Binary) (point : Nat) (exponent : Int) : Bool :=
  compareScaled (2 * double.significand) double.exponent ⟨2 * point + 1, exponent⟩ == .lt

/-- The nearest point of one grid that reads back, if the grid has one; the greater of two that are
equally near. -/
def onGrid? (double : Binary) (exponent : Int) : Option Decimal :=
  let point := gridFloor double exponent
  let below : Decimal := ⟨point, exponent⟩
  let above : Decimal := ⟨point + 1, exponent⟩
  match double.readsBack below, double.readsBack above with
  | true, true => some (if double.nearerBelow point exponent then below else above)
  | true, false => some below
  | false, true => some above
  | false, false => none

/-- A power of ten above the double. -/
def ceilingExponent (double : Binary) : Int :=
  (double.exponent + double.significand.log2) * 30103 / 100000 + 2

/-- The shortest decimal that reads back as a positive double. -/
def shortest (double : Binary) : Decimal :=
  let grids := (List.range 22).map fun (step : Nat) => double.ceilingExponent - step
  (grids.findSome? double.onGrid?).getD ⟨0, 0⟩

end Binary

namespace Decimal

/-- The digits of a decimal. -/
def digitList (decimal : Decimal) : List Char := Nat.toDigits 10 decimal.digits

/-- The decimal in full, without an exponent. -/
def positional (decimal : Decimal) : String :=
  let digits := decimal.digitList
  if 0 ≤ decimal.exponent then
    String.ofList (digits ++ List.replicate decimal.exponent.toNat '0')
  else
    let places := (-decimal.exponent).toNat
    let padded := List.replicate (places + 1 - digits.length) '0' ++ digits
    let whole := padded.length - places
    String.ofList (padded.take whole ++ '.' :: padded.drop whole)

/-- The decimal with one digit before the point and a power of ten. -/
def scientific (decimal : Decimal) : String :=
  let digits := decimal.digitList
  let power := decimal.exponent + digits.length - 1
  let mantissa :=
    match digits with
    | first :: second :: rest => first :: '.' :: second :: rest
    | _ => digits
  String.ofList mantissa ++ "e" ++ toString power

/-- A double written in full, with the fewest digits that read back. -/
def plainText (value : Float) : String :=
  if value.isNaN then
    "NaN"
  else
    let sign := if Binary.isNegative value.toBits then "-" else ""
    if value.isInf then
      sign ++ "inf"
    else
      let double := Binary.ofBits value.toBits
      if double.significand = 0 then
        sign ++ "0"
      else
        sign ++ double.shortest.positional

end Decimal

end Metering
