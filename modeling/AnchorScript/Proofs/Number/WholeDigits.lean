import AnchorScript.Proofs.Number.Magnitude

namespace AnchorScript

/-!
# Digits of whole numbers

A whole number of at most 53 bits is written with all of its digits. The search
for the fewest digits can find no other number: a multiple of a power of ten
that lies next to the whole number has a rank of its own, so that it reads back
only if it is the whole number. Zeros at the end that the search leaves out are
put back by the layout.
-/

/- Powers are those that natural numbers have by themselves, whatever else is in scope. -/
attribute [local instance (2000)] instPowNat

namespace Digits

/-- A power of ten puts zeros behind the digits. -/
theorem toDigits_mul_pow
    {whole : Nat}
    (positive : 0 < whole)
    (zeros : Nat) :
    Nat.toDigits 10 (whole * 10 ^ zeros) =
      Nat.toDigits 10 whole ++ List.replicate zeros '0' := by
  induction zeros with
  | zero =>
      simp
  | succ zeros inductionHypothesis =>
      have shifted : 0 < whole * 10 ^ zeros :=
        Nat.mul_pos positive (Nat.pow_pos (by decide))
      calc
        Nat.toDigits 10 (whole * 10 ^ (zeros + 1))
            = Nat.toDigits 10 (10 * (whole * 10 ^ zeros) + 0) := by
              rw [Nat.pow_succ, ← Nat.mul_assoc, Nat.add_zero,
                Nat.mul_comm 10]
        _ = Nat.toDigits 10 (whole * 10 ^ zeros) ++ Nat.toDigits 10 0 :=
              (Nat.toDigits_append_toDigits
                (by decide) shifted (by decide)).symm
        _ = Nat.toDigits 10 whole ++ List.replicate (zeros + 1) '0' := by
              rw [inductionHypothesis, Nat.toDigits_zero,
                List.append_assoc, ← List.replicate_succ']

/-- Zeros at the end of the coefficient are no significant digits. -/
theorem ofDecimal_shift
    {coefficient : Nat}
    (positive : 0 < coefficient)
    (zeros : Nat)
    (exponent : Int) :
    ofDecimal ⟨coefficient * 10 ^ zeros, exponent⟩ =
      ofDecimal ⟨coefficient, exponent + zeros⟩ := by
  have onlyZeros :
      ∀ digit ∈ List.replicate zeros '0', decide (digit = '0') = true := by
    intro digit member
    exact decide_eq_true (List.eq_of_mem_replicate member)
  simp only [ofDecimal, toDigits_mul_pow positive, List.reverse_append,
    List.reverse_replicate, List.dropWhile_append_of_pos onlyZeros,
    List.length_append, List.length_replicate, mk.injEq, true_and]
  omega

/-- A decimal of a whole number has the digits of the whole number. -/
theorem ofDecimal_of_hasValue
    {decimal : Decimal}
    {whole : Nat}
    (positive : 0 < whole)
    (hasValue : decimal.HasValue whole) :
    ofDecimal decimal = ofDecimal ⟨whole, 0⟩ := by
  obtain ⟨coefficient, exponent⟩ := decimal
  simp only [Decimal.HasValue, Decimal.numerator,
    Decimal.denominator] at hasValue
  rcases Int.le_total 0 exponent with notNegative | notPositive
  · have noPlaces : (-exponent).toNat = 0 := by omega
    have zeros : (0 : Int) + exponent.toNat = exponent := by omega
    rw [noPlaces, Nat.pow_zero, Nat.mul_one] at hasValue
    have coefficientPositive : 0 < coefficient :=
      Nat.pos_of_mul_pos_right (hasValue ▸ positive)
    rw [← hasValue, ofDecimal_shift coefficientPositive, zeros]
  · have noZeros : exponent.toNat = 0 := by omega
    have places : exponent + (-exponent).toNat = 0 := by omega
    rw [noZeros, Nat.pow_zero, Nat.mul_one] at hasValue
    rw [hasValue, ofDecimal_shift positive, places]

/-- A whole number in its positions has all of its digits. -/
theorem positional_whole (whole : Nat) :
    positional [] (ofDecimal ⟨whole, 0⟩) = Nat.toDigits 10 whole := by
  obtain ⟨zeros, allDigits⟩ := exists_zeros_ofDecimal ⟨whole, 0⟩
  have point :
      (ofDecimal ⟨whole, 0⟩).point = (Nat.toDigits 10 whole).length := by
    simp [ofDecimal]
  have total := congrArg List.length allDigits
  simp only [List.length_append, List.length_replicate] at total
  have positive : 0 < (Nat.toDigits 10 whole).length :=
    Nat.length_toDigits_pos
  have notLeading : ¬(ofDecimal ⟨whole, 0⟩).point ≤ 0 := by
    omega
  have isWhole :
      (ofDecimal ⟨whole, 0⟩).digits.length ≤
        (ofDecimal ⟨whole, 0⟩).point.toNat := by
    omega
  have missing :
      (ofDecimal ⟨whole, 0⟩).point.toNat -
          (ofDecimal ⟨whole, 0⟩).digits.length =
        zeros := by
    omega
  simp only [positional, notLeading, isWhole, if_false, if_true, missing,
    List.append_nil]
  exact allDigits.symm

end Digits

namespace Binary64

variable {rank whole : Nat}

/-- The first digit of a whole number stands where its digits begin. -/
theorem leadingPlace_of_units
    (positive : 0 < whole)
    (units : unitsOfRank rank = whole * unitsPerOne) :
    leadingPlace rank = (Nat.toDigits 10 whole).length := by
  have shifted
      (places : Nat) :
      unitsOfRank rank * 10 ^ places / unitsPerOne = whole * 10 ^ places := by
    rw [units, Nat.mul_right_comm, Nat.mul_div_cancel _ unitsPerOne_pos]
  simp only [leadingPlace, shifted, Digits.toDigits_mul_pow positive,
    List.length_append, List.length_replicate]
  omega

/-- A power of ten with fewer zeros than a whole number has digits is not larger. -/
theorem pow_le_of_lt_length
    {zeros : Nat}
    (positive : 0 < whole)
    (fewer : zeros < (Nat.toDigits 10 whole).length) :
    10 ^ zeros ≤ whole := by
  rcases Nat.eq_zero_or_pos zeros with isZero | someZeros
  · rw [isZero, Nat.pow_zero]
    exact positive
  · rw [← Nat.not_lt, ← Nat.length_toDigits_le_iff (by decide) someZeros]
    exact Nat.not_le.mpr fewer

/-- With places after the point, the grid holds the whole number itself. -/
theorem hasValue_of_nextOnGrid?_places
    {exponent : Int}
    {decimal : Decimal}
    (hasRank : HasRank whole)
    (units : unitsOfRank rank = whole * unitsPerOne)
    (places : exponent ≤ 0)
    (found : nextOnGrid? rank exponent = some decimal) :
    decimal.HasValue whole := by
  have noZeros : exponent.toNat = 0 := by omega
  have quotient :
      unitsOfRank rank * 10 ^ (-exponent).toNat /
          (unitsPerOne * 10 ^ exponent.toNat) =
        whole * 10 ^ (-exponent).toNat := by
    rw [units, noZeros, Nat.pow_zero, Nat.mul_one, Nat.mul_right_comm,
      Nat.mul_div_cancel _ unitsPerOne_pos]
  have remainder :
      unitsOfRank rank * 10 ^ (-exponent).toNat %
          (unitsPerOne * 10 ^ exponent.toNat) =
        0 := by
    rw [units, noZeros, Nat.pow_zero, Nat.mul_one, Nat.mul_right_comm,
      Nat.mul_mod_left]
  have lowerValue :
      Decimal.HasValue ⟨whole * 10 ^ (-exponent).toNat, exponent⟩ whole := by
    simp only [Decimal.HasValue, Decimal.numerator, Decimal.denominator,
      noZeros, Nat.pow_zero, Nat.mul_one]
  have denominatorPositive : 0 < unitsPerOne * 10 ^ exponent.toNat :=
    Nat.mul_pos unitsPerOne_pos (Nat.pow_pos (by decide))
  obtain ⟨_, isLower | ⟨_, notNearer⟩⟩ := cases_of_nextOnGrid? found
  · rw [isLower, quotient]
    exact lowerValue
  -- The one below reads back and is exact, so the one above is not taken.
  · rw [quotient, remainder] at notNearer
    have lowerReadsBack :
        rankOfDecimal ⟨whole * 10 ^ (-exponent).toNat, exponent⟩ = rank :=
      strictMono_unitsOfRank.injective
        ((units_of_hasRank hasRank lowerValue).trans units.symm)
    have := notNearer lowerReadsBack
    omega

/-- With zeros before the point, a multiple reads back only if it is the whole number. -/
theorem hasValue_of_nextOnGrid?_zeros
    {exponent : Int}
    {decimal : Decimal}
    (bounded : whole ≤ 2 ^ (53 : Nat))
    (units : unitsOfRank rank = whole * unitsPerOne)
    (zeros : 0 < exponent)
    (inside : 10 ^ exponent.toNat ≤ whole)
    (found : nextOnGrid? rank exponent = some decimal) :
    decimal.HasValue whole := by
  have noPlaces : (-exponent).toNat = 0 := by omega
  have quotient :
      unitsOfRank rank * 10 ^ (-exponent).toNat /
          (unitsPerOne * 10 ^ exponent.toNat) =
        whole / 10 ^ exponent.toNat := by
    rw [units, noPlaces, Nat.pow_zero, Nat.mul_one, Nat.mul_comm whole,
      Nat.mul_div_mul_left _ _ unitsPerOne_pos]
  obtain ⟨readsBack, side⟩ := cases_of_nextOnGrid? found
  rw [quotient] at side
  have onGrid :
      decimal.exponent = exponent ∧
        decimal.coefficient ≤ whole / 10 ^ exponent.toNat + 1 := by
    rcases side with isLower | ⟨isUpper, _⟩
    · exact isLower ▸ ⟨rfl, Nat.le_succ _⟩
    · exact isUpper ▸ ⟨rfl, Nat.le_refl _⟩
  obtain ⟨sameExponent, coefficientBound⟩ := onGrid
  let multiple := decimal.coefficient * 10 ^ exponent.toNat
  have hasValue : decimal.HasValue multiple := by
    simp only [Decimal.HasValue, Decimal.numerator, Decimal.denominator,
      sameExponent, noPlaces, Nat.pow_zero, Nat.mul_one, multiple]
  have even : 2 ∣ multiple := by
    have factor : 10 ^ 1 ∣ 10 ^ exponent.toNat :=
      Nat.pow_dvd_pow 10 (by omega)
    exact
      Nat.dvd_mul_left_of_dvd (Nat.dvd_trans (by decide) factor) _
  have multipleBound : multiple ≤ 2 ^ (54 : Nat) := by
    calc
      multiple
          ≤ (whole / 10 ^ exponent.toNat + 1) * 10 ^ exponent.toNat :=
            Nat.mul_le_mul_right _ coefficientBound
      _ = whole / 10 ^ exponent.toNat * 10 ^ exponent.toNat +
            10 ^ exponent.toNat := by
            rw [Nat.add_mul, Nat.one_mul]
      _ ≤ whole + whole :=
            Nat.add_le_add (Nat.div_mul_le_self _ _) inside
      _ ≤ 2 ^ (54 : Nat) := by
            omega
  have same : multiple = whole :=
    Nat.eq_of_mul_eq_mul_right unitsPerOne_pos
      ((units_of_hasRank
          (hasRank_of_even even multipleBound) hasValue).symm.trans
        (readsBack ▸ units))
  exact same ▸ hasValue

/-- The shortest decimal of a whole number has its value. -/
theorem hasValue_shortestDecimal
    (positive : 0 < whole)
    (bounded : whole ≤ 2 ^ (53 : Nat))
    (units : unitsOfRank rank = whole * unitsPerOne) :
    (shortestDecimal rank).HasValue whole := by
  simp only [shortestDecimal]
  cases search :
      (List.range 17).findSome? fun digits =>
        nextOnGrid? rank
          (leadingPlace rank - ((digits + 1 : Nat) : Int)) with
  | none =>
      have exact := units_exactDecimal rank
      rw [units, Nat.mul_right_comm] at exact
      exact Nat.eq_of_mul_eq_mul_right unitsPerOne_pos exact
  | some decimal =>
      obtain ⟨digits, _, found⟩ := List.exists_of_findSome?_eq_some search
      rw [leadingPlace_of_units positive units] at found
      by_cases zeros :
          0 < ((Nat.toDigits 10 whole).length : Int) -
            ((digits + 1 : Nat) : Int)
      · refine hasValue_of_nextOnGrid?_zeros bounded units zeros ?_ found
        exact pow_le_of_lt_length positive (by omega)
      · exact
          hasValue_of_nextOnGrid?_places
            (hasRank_of_le bounded) units (Int.not_lt.mp zeros) found

/-- The shortest digits of a whole number, in their positions, are all of its digits. -/
theorem positional_shortestDecimal
    (positive : 0 < whole)
    (bounded : whole ≤ 2 ^ (53 : Nat))
    (units : unitsOfRank rank = whole * unitsPerOne) :
    (Digits.ofDecimal (shortestDecimal rank)).positional [] =
      Nat.toDigits 10 whole := by
  rw [Digits.ofDecimal_of_hasValue positive
      (hasValue_shortestDecimal positive bounded units),
    Digits.positional_whole]

end Binary64

end AnchorScript
