import Mathlib.Data.Prod.Lex
import Metering.Scalar

/-!
# Comparing measured values

The comparison of measured values carries over from one pair to the next
(`Scalar.IsTransitive`), also for doubles, where it is no order: a value that is
not a number compares with nothing, not even with itself. Every other double
has a place among all of them (`doubleRank?`), and comparing doubles is
comparing their places (`UnpackedFloat.le_iff`).
-/

namespace Metering

/-- The comparison of a scalar type is transitive. It need not be reflexive or total. -/
class Scalar.IsTransitive (σ : Type) [Scalar σ] : Prop where
  /-- What is at most a value is at most whatever that one is at most. -/
  atMost_trans : ∀ {low middle high : σ}, Scalar.atMost low middle → Scalar.atMost middle high →
    Scalar.atMost low high

instance : Scalar.IsTransitive Rat where
  atMost_trans {low middle high} first second := by
    have lower : low ≤ middle := of_decide_eq_true first
    have upper : middle ≤ high := of_decide_eq_true second
    exact decide_eq_true (Rat.le_trans lower upper)

/-! ## Doubles -/

open Float.Model (UnpackedFloat)

/-- The place of a double among all doubles: its kind, then the exponent and the mantissa, which
count backwards below zero. What is not a number has no place. -/
def doubleRank? : UnpackedFloat → Option (Int ×ₗ Int ×ₗ Int)
  | .notANumber => none
  | .infinity .negative => some (toLex (-2, toLex (0, 0)))
  | .finite .negative mantissa exponent _ => some (toLex (-1, toLex (-exponent, -mantissa)))
  | .zero _ => some (toLex (0, toLex (0, 0)))
  | .finite .positive mantissa exponent _ => some (toLex (1, toLex (exponent, mantissa)))
  | .infinity .positive => some (toLex (2, toLex (0, 0)))

/-- Comparing exponents and then mantissas is comparing pairs of them. -/
theorem isLE_compare_then (exponent other : Int) (mantissa otherMantissa : Nat) :
    ((compare exponent other).then (compare mantissa otherMantissa)).isLE ↔
      exponent < other ∨ exponent = other ∧ mantissa ≤ otherMantissa := by
  rw [Ordering.isLE_then_iff_or, Int.compare_eq_lt, Int.compare_eq_eq, Nat.isLE_compare]

/-- Comparing exponents and then mantissas the other way round. -/
theorem isGE_compare_then (exponent other : Int) (mantissa otherMantissa : Nat) :
    ((compare exponent other).then (compare mantissa otherMantissa)).isGE ↔
      other < exponent ∨ exponent = other ∧ otherMantissa ≤ mantissa := by
  rw [← Ordering.isLE_swap, Ordering.swap_then, Int.compare_swap, Nat.compare_swap,
    isLE_compare_then, eq_comm (a := other)]

/-- Comparing doubles is comparing their places. -/
theorem UnpackedFloat.le_iff (left right : UnpackedFloat) :
    left.le right ↔ ∃ low high, doubleRank? left = some low ∧ doubleRank? right = some high ∧
      low ≤ high := by
  have signs : ∀ sign other : UnpackedFloat.Sign, (compare sign other).isLE =
      (sign matches .negative || other matches .positive) := by
    rintro (_ | _) (_ | _) <;> rfl
  unfold UnpackedFloat.le UnpackedFloat.compare doubleRank?
  rcases left with (_ | _) | _ | _ | ⟨_ | _, mantissa, exponent, _⟩ <;>
    rcases right with (_ | _) | _ | _ | ⟨_ | _, otherMantissa, other, _⟩ <;>
    dsimp only <;>
    simp [Prod.Lex.le_iff, isLE_compare_then, isGE_compare_then, signs]

instance : Scalar.IsTransitive Float where
  atMost_trans {low middle high} first second := by
    have iff : ∀ left right : Float, Scalar.atMost left right ↔
        left.toModel.unpack.le right.toModel.unpack := by
      intro left right
      change decide (decide (left.toModel ≤ right.toModel) = true) = true ↔ _
      rw [decide_eq_true_eq, decide_eq_true_eq]
      rfl
    rw [iff, UnpackedFloat.le_iff] at *
    obtain ⟨lowRank, middleRank, lower, found, le⟩ := first
    obtain ⟨otherRank, highRank, same, upper, leHigh⟩ := second
    obtain rfl : middleRank = otherRank := Option.some_inj.1 (found.symm.trans same)
    exact ⟨lowRank, highRank, lower, upper, le_trans le leHigh⟩

end Metering
