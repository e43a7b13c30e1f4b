import AnchorScript.Proofs.Number.ReadBack
import Mathlib.Order.Monotone.Basic

namespace AnchorScript

/-!
# Magnitudes of whole numbers

Ranks count magnitudes, so a larger rank has more units. A whole number of at
most 53 bits, and twice such a number, has a rank of its own, which every decimal
of it rounds to.
-/

/- Powers are those that natural numbers have by themselves, whatever else is in scope. -/
attribute [local instance (2000)] instPowNat

/-- The decimal has the value of a whole number. -/
def Decimal.HasValue
    (decimal : Decimal)
    (whole : Nat) :
    Prop :=
  decimal.numerator = whole * decimal.denominator

/-- A decimal without a power of ten has the value of its coefficient. -/
theorem Decimal.hasValue_whole (whole : Nat) :
    HasValue ⟨whole, 0⟩ whole :=
  rfl

namespace Binary64

/-- The next rank has more units. -/
theorem unitsOfRank_lt_succ (rank : Nat) :
    unitsOfRank rank < unitsOfRank (rank + 1) := by
  by_cases subnormal : rank + 1 < 2 ^ (52 : Nat)
  · have before : rank < 2 ^ (52 : Nat) := by omega
    simp only [unitsOfRank, subnormal, before, if_true, Nat.lt_add_one]
  by_cases isLast : rank < 2 ^ (52 : Nat)
  · have fraction : (rank + 1) % 2 ^ (52 : Nat) = 0 := by omega
    have exponent : (rank + 1) / 2 ^ (52 : Nat) - 1 = 0 := by omega
    simp only [unitsOfRank, subnormal, isLast, if_true, if_false, fraction,
      exponent, Nat.pow_zero, Nat.add_zero, Nat.mul_one]
  have stepPositive : 0 < 2 ^ (rank / 2 ^ (52 : Nat) - 1) :=
    Nat.pow_pos (by decide)
  simp only [unitsOfRank, subnormal, isLast, if_false]
  by_cases carries : rank % 2 ^ (52 : Nat) + 1 = 2 ^ (52 : Nat)
  · have fraction : (rank + 1) % 2 ^ (52 : Nat) = 0 := by omega
    have exponent :
        (rank + 1) / 2 ^ (52 : Nat) - 1 =
          rank / 2 ^ (52 : Nat) - 1 + 1 := by
      omega
    have doubled :
        2 ^ (rank / 2 ^ (52 : Nat) - 1 + 1) =
          2 * 2 ^ (rank / 2 ^ (52 : Nat) - 1) :=
      Nat.pow_succ'
    rw [fraction, exponent, doubled, ← Nat.mul_assoc]
    exact Nat.mul_lt_mul_of_pos_right (by omega) stepPositive
  · have fraction :
        (rank + 1) % 2 ^ (52 : Nat) = rank % 2 ^ (52 : Nat) + 1 := by
      omega
    have exponent :
        (rank + 1) / 2 ^ (52 : Nat) = rank / 2 ^ (52 : Nat) := by
      omega
    rw [fraction, exponent]
    exact Nat.mul_lt_mul_of_pos_right (by omega) stepPositive

theorem strictMono_unitsOfRank : StrictMono unitsOfRank :=
  strictMono_nat_of_lt_succ unitsOfRank_lt_succ

theorem two_pow_mul_unitsPerOne (shift : Nat) :
    2 ^ shift * unitsPerOne = 2 ^ (shift + 1074) := by
  rw [Nat.pow_add]
  rfl

/-- The whole number is a finite magnitude. -/
def HasRank (whole : Nat) : Prop :=
  ∃ rank, rank < infinityRank ∧ unitsOfRank rank = whole * unitsPerOne

theorem hasRank_zero : HasRank 0 :=
  ⟨0, by decide, by simp [unitsOfRank]⟩

/-- A significand of at most 53 bits, shifted by some bits, is a finite magnitude. -/
theorem hasRank_significand
    {significand shift : Nat}
    (positive : 0 < significand)
    (bounded : significand < 2 ^ (53 : Nat))
    (small : shift ≤ 971) :
    HasRank (significand * 2 ^ shift) := by
  let size := Nat.log2 significand
  have nonzero : significand ≠ 0 := Nat.ne_of_gt positive
  have sizeBound : size < 53 := (Nat.log2_lt nonzero).mpr bounded
  obtain ⟨lower, upper⟩ := (Nat.log2_eq_iff (k := size) nonzero).mp rfl
  -- The leading bit is moved to its place in the significand field.
  let aligned := significand * 2 ^ (52 - size)
  have splitPower
      (few many : Nat)
      (inside : few ≤ many) :
      (2 : Nat) ^ few * 2 ^ (many - few) = 2 ^ many := by
    rw [← Nat.pow_add, Nat.add_sub_cancel' inside]
  have alignedLower : 2 ^ (52 : Nat) ≤ aligned := by
    rw [← splitPower size 52 (by omega)]
    exact Nat.mul_le_mul_right _ lower
  have alignedUpper : aligned < 2 ^ (53 : Nat) := by
    rw [← splitPower (size + 1) 53 (by omega),
      show 53 - (size + 1) = 52 - size by omega]
    exact Nat.mul_lt_mul_of_pos_right upper (Nat.two_pow_pos _)
  refine
    ⟨(size + shift + 1022) * 2 ^ (52 : Nat) + aligned, ?_, ?_⟩
  · simp only [infinityRank]
    omega
  · have notSubnormal :
        ¬(size + shift + 1022) * 2 ^ (52 : Nat) + aligned <
          2 ^ (52 : Nat) := by
      omega
    have fraction :
        2 ^ (52 : Nat) +
            ((size + shift + 1022) * 2 ^ (52 : Nat) + aligned) %
              2 ^ (52 : Nat) =
          aligned := by
      omega
    have exponent :
        ((size + shift + 1022) * 2 ^ (52 : Nat) + aligned) /
              2 ^ (52 : Nat) -
            1 =
          size + shift + 1022 := by
      omega
    have places :
        52 - size + (size + shift + 1022) = shift + 1074 := by
      omega
    have shifted :
        2 ^ (52 - size) * 2 ^ (size + shift + 1022) =
          2 ^ shift * unitsPerOne := by
      rw [← Nat.pow_add, places, two_pow_mul_unitsPerOne]
    simp only [unitsOfRank, notSubnormal, if_false, fraction, exponent]
    rw [Nat.mul_assoc, Nat.mul_assoc, shifted]

/-- Every whole number up to two to the power 53 is a finite magnitude. -/
theorem hasRank_of_le
    {whole : Nat}
    (bounded : whole ≤ 2 ^ (53 : Nat)) :
    HasRank whole := by
  rcases Nat.eq_zero_or_pos whole with isZero | positive
  · exact isZero ▸ hasRank_zero
  rcases Nat.lt_or_eq_of_le bounded with below | isBound
  · simpa using hasRank_significand positive below (Nat.zero_le 971)
  · have shifted : whole = 1 * 2 ^ (53 : Nat) := by
      omega
    rw [shifted]
    exact hasRank_significand (by decide) (by decide) (by decide)

/-- Every even whole number up to two to the power 54 is a finite magnitude. -/
theorem hasRank_of_even
    {whole : Nat}
    (even : 2 ∣ whole)
    (bounded : whole ≤ 2 ^ (54 : Nat)) :
    HasRank whole := by
  obtain ⟨half, rfl⟩ := even
  rcases Nat.eq_zero_or_pos half with isZero | positive
  · rw [isZero]
    exact hasRank_zero
  rcases Nat.lt_or_eq_of_le (show half ≤ 2 ^ (53 : Nat) by omega) with
    below | isBound
  · have shifted : 2 * half = half * 2 ^ 1 := by
      omega
    rw [shifted]
    exact hasRank_significand positive below (by decide)
  · have shifted : 2 * half = 1 * 2 ^ (54 : Nat) := by
      omega
    rw [shifted]
    exact hasRank_significand (by decide) (by decide) (by decide)

/-- A decimal of a whole number that has a rank rounds to its magnitude. -/
theorem units_of_hasRank
    {decimal : Decimal}
    {whole : Nat}
    (hasRank : HasRank whole)
    (hasValue : decimal.HasValue whole) :
    unitsOfRank (rankOfDecimal decimal) = whole * unitsPerOne := by
  obtain ⟨rank, finite, units⟩ := hasRank
  have rounds : rankOfDecimal decimal = rank := by
    apply rankOfDecimal_of_units finite
    rw [hasValue, units, Nat.mul_right_comm]
  rw [rounds, units]

/-- Whole numbers up to two to the power 53 have their ranks in their order. -/
theorem rankOfDecimal_lt_iff
    {left right : Nat}
    (leftBounded : left ≤ 2 ^ (53 : Nat))
    (rightBounded : right ≤ 2 ^ (53 : Nat)) :
    rankOfDecimal ⟨left, 0⟩ < rankOfDecimal ⟨right, 0⟩ ↔ left < right := by
  rw [← strictMono_unitsOfRank.lt_iff_lt,
    units_of_hasRank (hasRank_of_le leftBounded)
      (Decimal.hasValue_whole left),
    units_of_hasRank (hasRank_of_le rightBounded)
      (Decimal.hasValue_whole right)]
  exact Nat.mul_lt_mul_right unitsPerOne_pos

end Binary64

end AnchorScript
