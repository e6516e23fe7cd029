import ByteMachine.Text.Numeral
import Mathlib.Algebra.Group.Nat.Defs

/-!
# Integers that are too long

Which integers have a decimal numeral. The limit is one of digits, and it is stated here as one of
size: an integer is short exactly if it is less than the power of ten that has one digit more. So
the power itself is the first natural number that is not written, and its negative the first below
zero.
-/

namespace ByteMachine.Text

/-- An integer is short exactly if it is smaller than the first that is too long. The limit of
digits is a bound on the size, and the sign does not count. -/
theorem isShort_iff {n : Int} : isShort n = true ↔ n.natAbs < 10 ^ maxDecimalDigits := by
  rw [isShort, decide_eq_true_iff, decimal]
  exact Nat.length_toDigits_le_iff (by decide) (by decide)

/-- The first natural number that is too long: a one and as many zeros as a numeral may have
digits. -/
def firstLong : Int :=
  (10 ^ maxDecimalDigits : Nat)

/-- The first integer that is too long is so. It stands for all of them in what fails. -/
theorem not_isShort_firstLong : ¬ isShort firstLong = true := by
  rw [isShort_iff, firstLong, Int.natAbs_natCast]
  exact Nat.lt_irrefl _

/-- The first integer that is too long is larger than the number of its digits, and so than the size
of any memory of no more bytes than that. -/
theorem lt_natAbs_firstLong : maxDecimalDigits < firstLong.natAbs := by
  rw [firstLong, Int.natAbs_natCast]
  exact Nat.lt_pow_self (by decide)

/-- A natural number that is smaller than the first that is too long is short. -/
theorem isShort_of_lt {n : Nat} (small : n < 10 ^ maxDecimalDigits) : isShort n = true :=
  isShort_iff.mpr small

theorem isShort_neg (n : Int) : isShort (-n) = isShort n := by
  rw [isShort, isShort, Int.natAbs_neg]

/-- A short integer has the numeral that it should have, with its sign and without zeros in
front. -/
theorem numeral_of_isShort {n : Int} (short : isShort n = true) :
    numeral n = .ok (signedDecimal n) :=
  if_pos short

end ByteMachine.Text
