import Metering.Decimal.Shortest

/-!
# Measured values

Powers, energies and intensities are values of a scalar type. The program runs
on doubles; its laws are stated on rationals, where the same definitions
compute without rounding. Comparison is a test and not an order, because it is
false of every pair that holds a NaN.
-/

namespace Metering

/-- The arithmetic that measured values need. -/
class Scalar (σ : Type) extends Add σ, Sub σ, Mul σ, Div σ where
  /-- The value of a whole number. -/
  ofInt : Int → σ
  /-- Whether the first value is less than or equal to the second. -/
  atMost : σ → σ → Bool
  /-- Whether a value is a number and not infinite. -/
  isFinite : σ → Bool
  /-- A value written in full. -/
  text : σ → String

namespace Scalar

variable {σ : Type} [Scalar σ]

/-- The value zero. -/
def zero : σ := ofInt 0

/-- The sum of a list, added from the left to zero. -/
def sum (values : List σ) : σ := values.foldl (fun total value => total + value) zero

end Scalar

instance : Scalar Float where
  ofInt := Float.ofInt
  atMost left right := left ≤ right
  isFinite := Float.isFinite
  text := Decimal.plainText

instance : Scalar Rat where
  ofInt := fun number => (number : Rat)
  atMost left right := left ≤ right
  isFinite := fun _ => true
  text := toString

end Metering
