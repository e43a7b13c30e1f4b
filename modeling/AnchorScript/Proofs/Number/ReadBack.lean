import AnchorScript.Proofs.Number.Comparison
import AnchorScript.Value

namespace AnchorScript

/-!
# Positional numbers read back

A finite magnitude that is written positionally is the nearest magnitude to
what is written. The digits are chosen so that they round to it; what the layout
adds to them, zeros and a point, changes neither the fraction that they stand
for nor, therefore, what the fraction rounds to.
-/

/- Powers are those that natural numbers have by themselves, whatever else is in scope. -/
attribute [local instance (2000)] instPowNat

namespace Binary64

/-- A common factor of numerator and denominator does not change the rounding. -/
theorem nearestRank_mul_left
    {factor : Nat}
    (positive : 0 < factor)
    (numerator denominator : Nat) :
    nearestRank (factor * numerator) (factor * denominator) =
      nearestRank numerator denominator := by
  have sameQuotient
      (scaled step : Nat) :
      factor * scaled / (factor * step) = scaled / step :=
    Nat.mul_div_mul_left scaled step positive
  have sameSide
      (step remainder : Nat) :
      (factor * step < 2 * (factor * remainder) ↔ step < 2 * remainder) ∧
        (2 * (factor * remainder) = factor * step ↔ 2 * remainder = step) := by
    rw [Nat.mul_left_comm 2 factor remainder]
    exact ⟨Nat.mul_lt_mul_left positive,
      Nat.mul_right_inj (Nat.ne_of_gt positive)⟩
  simp only [nearestRank, Nat.mul_assoc factor, sameQuotient,
    Nat.mul_mod_mul_left, sameSide]

/-- Equal fractions round alike. -/
theorem nearestRank_congr
    {numerator denominator numerator' denominator' : Nat}
    (positive : 0 < denominator)
    (positive' : 0 < denominator')
    (same : numerator * denominator' = numerator' * denominator) :
    nearestRank numerator denominator =
      nearestRank numerator' denominator' := by
  calc
    nearestRank numerator denominator
        = nearestRank
            (denominator' * numerator) (denominator' * denominator) :=
          (nearestRank_mul_left positive' _ _).symm
    _ = nearestRank
          (denominator * numerator') (denominator * denominator') := by
          rw [Nat.mul_comm denominator' numerator, same,
            Nat.mul_comm numerator' denominator,
            Nat.mul_comm denominator' denominator]
    _ = nearestRank numerator' denominator' :=
          nearestRank_mul_left positive _ _

/-- Zeros at the end of the coefficient count as a power of ten. -/
theorem rankOfDecimal_shift
    (coefficient zeros : Nat)
    (exponent : Int) :
    rankOfDecimal ⟨coefficient * 10 ^ zeros, exponent⟩ =
      rankOfDecimal ⟨coefficient, exponent + zeros⟩ := by
  refine nearestRank_congr
    (Decimal.denominator_pos _) (Decimal.denominator_pos _) ?_
  have places :
      zeros + exponent.toNat + (-(exponent + zeros)).toNat =
        (exponent + zeros).toNat + (-exponent).toNat := by
    omega
  simp only [Decimal.numerator, Decimal.denominator, Nat.mul_assoc]
  rw [← Nat.pow_add, ← Nat.pow_add, ← Nat.pow_add, ← Nat.add_assoc, places]

/-- A number without digits has the least rank. -/
theorem rankOfDecimal_of_coefficient_eq_zero
    {decimal : Decimal}
    (noDigits : decimal.coefficient = 0) :
    rankOfDecimal decimal = 0 := by
  simp [rankOfDecimal, nearestRank, Decimal.numerator, noDigits]

/-- Units are counted from a number above zero. -/
theorem unitsPerOne_pos : 0 < unitsPerOne := by
  unfold unitsPerOne
  apply Nat.two_pow_pos

/-- A significand with its leading bit has the magnitude of that bit, shifted. -/
private theorem log2_significand
    {shift fraction : Nat}
    (inRange : fraction < 2 ^ (52 : Nat)) :
    Nat.log2 ((2 ^ (52 : Nat) + fraction) * 2 ^ shift) = 52 + shift := by
  have positive : 0 < 2 ^ shift := Nat.pow_pos (by decide)
  have lower :
      2 ^ (52 + shift) ≤ (2 ^ (52 : Nat) + fraction) * 2 ^ shift := by
    rw [Nat.pow_add]
    exact Nat.mul_le_mul_right _ (Nat.le_add_right _ _)
  have upper :
      (2 ^ (52 : Nat) + fraction) * 2 ^ shift < 2 ^ (52 + shift + 1) := by
    rw [Nat.add_right_comm 52 shift 1, Nat.pow_add]
    exact Nat.mul_lt_mul_of_pos_right (by omega) positive
  have nonzero : (2 ^ (52 : Nat) + fraction) * 2 ^ shift ≠ 0 :=
    Nat.ne_of_gt (Nat.mul_pos (by omega) positive)
  exact (Nat.log2_eq_iff nonzero).mpr ⟨lower, upper⟩

/--
The units of a magnitude are a significand shifted by the distance of its
neighbours, and significand and distance together make up its rank.
-/
theorem exists_significand (rank : Nat) :
    ∃ significand shift,
      unitsOfRank rank = significand * 2 ^ shift ∧
        Nat.log2 (unitsOfRank rank) - 52 = shift ∧
        shift * 2 ^ (52 : Nat) + significand = rank := by
  by_cases subnormal : rank < 2 ^ (52 : Nat)
  · refine ⟨rank, 0, by simp [unitsOfRank, subnormal], ?_, by omega⟩
    simp only [unitsOfRank, subnormal, if_true]
    by_cases isZero : rank = 0
    · simp [isZero]
    · have := (Nat.log2_lt isZero).mpr subnormal
      omega
  · have units :
        unitsOfRank rank =
          (2 ^ (52 : Nat) + rank % 2 ^ (52 : Nat)) *
            2 ^ (rank / 2 ^ (52 : Nat) - 1) := by
      simp only [unitsOfRank, subnormal, if_false]
    refine ⟨_, _, units, ?_, by omega⟩
    rw [units, log2_significand (Nat.mod_lt _ (by decide))]
    omega

/-- Whole units are rounded to the magnitude that they make up. -/
theorem nearestRank_unitsOfRank
    {rank : Nat}
    (finite : rank < infinityRank) :
    nearestRank (unitsOfRank rank) unitsPerOne = rank := by
  obtain ⟨significand, shift, units, distance, total⟩ :=
    exists_significand rank
  have onePositive := unitsPerOne_pos
  have shiftPositive : 0 < 2 ^ shift := Nat.pow_pos (by decide)
  have scaled :
      unitsOfRank rank * unitsPerOne / unitsPerOne = unitsOfRank rank :=
    Nat.mul_div_cancel _ onePositive
  have quotient :
      unitsOfRank rank * unitsPerOne / (unitsPerOne * 2 ^ shift) =
        significand := by
    rw [Nat.mul_comm (unitsOfRank rank),
      Nat.mul_div_mul_left _ _ onePositive, units,
      Nat.mul_div_cancel _ shiftPositive]
  have remainder :
      unitsOfRank rank * unitsPerOne % (unitsPerOne * 2 ^ shift) = 0 := by
    rw [Nat.mul_comm (unitsOfRank rank), Nat.mul_mod_mul_left, units,
      Nat.mul_mod_left, Nat.mul_zero]
  have stepPositive : 0 < unitsPerOne * 2 ^ shift :=
    Nat.mul_pos onePositive shiftPositive
  have notHalfway :
      ¬(unitsPerOne * 2 ^ shift < 0 ∨
        0 = unitsPerOne * 2 ^ shift ∧ significand % 2 = 1) := by
    omega
  simp only [nearestRank, scaled, distance, quotient, remainder,
    Nat.mul_zero, notHalfway, if_false, total]
  exact Nat.min_eq_left (Nat.le_of_lt finite)

/-- A decimal whose value is that of a finite rank has this rank. -/
theorem rankOfDecimal_of_units
    {decimal : Decimal}
    {rank : Nat}
    (finite : rank < infinityRank)
    (same :
      decimal.numerator * unitsPerOne =
        unitsOfRank rank * decimal.denominator) :
    rankOfDecimal decimal = rank :=
  (nearestRank_congr decimal.denominator_pos unitsPerOne_pos same).trans
    (nearestRank_unitsOfRank finite)

/-- A magnitude that is written out exactly keeps its value. -/
theorem units_exactDecimal (rank : Nat) :
    (exactDecimal rank).numerator * unitsPerOne =
      unitsOfRank rank * (exactDecimal rank).denominator := by
  have places (count : Nat) : (10 : Nat) ^ count = 5 ^ count * 2 ^ count :=
    Nat.mul_pow 5 2 count
  have noPlaces : (-1074 : Int).toNat = 0 := rfl
  have allPlaces : (-(-1074) : Int).toNat = 1074 := rfl
  simp only [Decimal.numerator, Decimal.denominator, exactDecimal,
    noPlaces, allPlaces, Nat.pow_zero, Nat.mul_one, unitsPerOne, places,
    Nat.mul_assoc]

/-- A finite magnitude that is written out exactly rounds to itself. -/
theorem rankOfDecimal_exactDecimal
    {rank : Nat}
    (finite : rank < infinityRank) :
    rankOfDecimal (exactDecimal rank) = rank :=
  rankOfDecimal_of_units finite (units_exactDecimal rank)

/--
The decimal that is found next to a magnitude rounds to it. It is the one below,
or the one above, which is taken where the one below does not read back or is
not nearer.
-/
theorem cases_of_nextOnGrid?
    {rank : Nat}
    {exponent : Int}
    {decimal : Decimal}
    (found : nextOnGrid? rank exponent = some decimal) :
    let numerator := unitsOfRank rank * 10 ^ (-exponent).toNat
    let denominator := unitsPerOne * 10 ^ exponent.toNat
    rankOfDecimal decimal = rank ∧
      (decimal = ⟨numerator / denominator, exponent⟩ ∨
        decimal = ⟨numerator / denominator + 1, exponent⟩ ∧
          (rankOfDecimal ⟨numerator / denominator, exponent⟩ = rank →
            denominator ≤ 2 * (numerator % denominator))) := by
  simp only [nextOnGrid?] at found
  split at found
  · rename_i lowerReadsBack
    split at found
    · rename_i upperNearer
      simp only [Option.some.injEq] at found
      subst found
      exact ⟨upperNearer.1, Or.inr ⟨rfl, fun _ => upperNearer.2⟩⟩
    · simp only [Option.some.injEq] at found
      subst found
      exact ⟨lowerReadsBack, Or.inl rfl⟩
  · rename_i lowerElsewhere
    split at found
    · rename_i upperReadsBack
      simp only [Option.some.injEq] at found
      subst found
      exact
        ⟨upperReadsBack,
          Or.inr ⟨rfl, fun readsBack => absurd readsBack lowerElsewhere⟩⟩
    · simp at found

/-- The shortest decimal of a finite magnitude rounds to it. -/
theorem rankOfDecimal_shortestDecimal
    {rank : Nat}
    (finite : rank < infinityRank) :
    rankOfDecimal (shortestDecimal rank) = rank := by
  simp only [shortestDecimal]
  cases search :
      (List.range 17).findSome? fun digits =>
        nextOnGrid? rank
          (leadingPlace rank - ((digits + 1 : Nat) : Int)) with
  | none =>
      exact rankOfDecimal_exactDecimal finite
  | some decimal =>
      obtain ⟨digits, _, found⟩ := List.exists_of_findSome?_eq_some search
      exact (cases_of_nextOnGrid? found).1

end Binary64

namespace Numeral

/-- Digits are the numeral of a whole number. -/
theorem unsigned?_whole
    {digits : List Char}
    (nonempty : digits ≠ [])
    (allDigits : ∀ digit ∈ digits, digit.isDigit = true) :
    unsigned? digits = some ⟨Nat.ofDigitChars 10 digits 0, 0⟩ := by
  have taken : digits.takeWhile Char.isDigit = digits := by
    simpa using @List.takeWhile_append_of_pos _ Char.isDigit digits [] allDigits
  have nothingLeft : digits.dropWhile Char.isDigit = [] := by
    simpa using @List.dropWhile_append_of_pos _ Char.isDigit digits [] allDigits
  simp only [unsigned?, nothingLeft, taken, nonempty, if_false]

/-- Digits with a point between them are the numeral of their places. -/
theorem unsigned?_places
    {whole places : List Char}
    (wholeNonempty : whole ≠ [])
    (placesNonempty : places ≠ [])
    (wholeDigits : ∀ digit ∈ whole, digit.isDigit = true)
    (placesDigits : ∀ digit ∈ places, digit.isDigit = true) :
    unsigned? (whole ++ '.' :: places) =
      some ⟨Nat.ofDigitChars 10 (whole ++ places) 0,
        -(places.length : Int)⟩ := by
  have notDigit : Char.isDigit '.' = false := by decide
  have taken :
      (whole ++ '.' :: places).takeWhile Char.isDigit = whole := by
    rw [List.takeWhile_append_of_pos wholeDigits]
    simp [notDigit]
  have left :
      (whole ++ '.' :: places).dropWhile Char.isDigit = '.' :: places := by
    rw [List.dropWhile_append_of_pos wholeDigits]
    simp [notDigit]
  have allPlaces : places.all Char.isDigit = true :=
    List.all_eq_true.mpr placesDigits
  simp [unsigned?, taken, left, wholeNonempty, placesNonempty, allPlaces]

end Numeral

namespace Digits

private theorem ofDigitChars_zeros_append
    (zeros : Nat)
    (digits : List Char) :
    Nat.ofDigitChars 10 (List.replicate zeros '0' ++ digits) 0 =
      Nat.ofDigitChars 10 digits 0 := by
  rw [Nat.ofDigitChars_append, Nat.ofDigitChars_replicate_zero, Nat.mul_zero]

/--
Digits in their positions, with the zeros and the point that their place asks
for, are a numeral that rounds like the digits with their power of ten.
-/
theorem rankOfDecimal_positional
    {digits : List Char}
    (nonempty : digits ≠ [])
    (allDigits : ∀ digit ∈ digits, digit.isDigit = true)
    (point : Int) :
    ∃ decimal,
      Numeral.unsigned? (positional [] ⟨digits, point⟩) = some decimal ∧
        Binary64.rankOfDecimal decimal =
          Binary64.rankOfDecimal
            ⟨Nat.ofDigitChars 10 digits 0, point - digits.length⟩ := by
  have zeroDigits
      (count : Nat) :
      ∀ digit ∈ List.replicate count '0', digit.isDigit = true := by
    intro digit member
    rw [List.eq_of_mem_replicate member]
    decide
  simp only [positional]
  split
  -- The point stands before the first digit.
  · rename_i leading
    have placesDigits :
        ∀ digit ∈ List.replicate (-point).toNat '0' ++ digits,
          digit.isDigit = true := by
      intro digit member
      rcases List.mem_append.mp member with isZero | isDigit
      · exact zeroDigits _ digit isZero
      · exact allDigits digit isDigit
    have oneZero : (['0'] : List Char) ≠ [] := by simp
    refine ⟨_, Numeral.unsigned?_places oneZero
      (by simp [nonempty]) (zeroDigits 1) placesDigits, ?_⟩
    have value :
        Nat.ofDigitChars 10
            (['0'] ++ (List.replicate (-point).toNat '0' ++ digits)) 0 =
          Nat.ofDigitChars 10 digits 0 := by
      rw [← List.append_assoc]
      exact ofDigitChars_zeros_append ((-point).toNat + 1) digits
    have exponent :
        -((List.replicate (-point).toNat '0' ++ digits).length : Int) =
          point - digits.length := by
      simp only [List.length_append, List.length_replicate]
      omega
    rw [value, exponent]
  · split
    -- No digit stands after the point.
    · rename_i notLeading whole
      have wholeDigits :
          ∀ digit ∈
              digits ++
                List.replicate (point.toNat - digits.length) '0' ++ [],
            digit.isDigit = true := by
        intro digit member
        rw [List.append_nil] at member
        rcases List.mem_append.mp member with isDigit | isZero
        · exact allDigits digit isDigit
        · exact zeroDigits _ digit isZero
      refine ⟨_, Numeral.unsigned?_whole (by simp [nonempty]) wholeDigits, ?_⟩
      have exponent :
          (0 : Int) + (point.toNat - digits.length : Nat) =
            point - digits.length := by
        omega
      rw [List.append_nil, Nat.ofDigitChars_append,
        Nat.ofDigitChars_replicate_zero, Nat.mul_comm,
        Binary64.rankOfDecimal_shift, exponent]
    -- The point stands among the digits.
    · rename_i notLeading notWhole
      have notAll : point.toNat < digits.length := by omega
      refine ⟨_, Numeral.unsigned?_places
        (by
          intro noWhole
          have := congrArg List.length noWhole
          simp only [List.length_take, List.length_nil] at this
          omega)
        (by
          intro noPlaces
          have := congrArg List.length noPlaces
          simp only [List.length_drop, List.length_nil] at this
          omega)
        (fun digit member => allDigits digit (List.mem_of_mem_take member))
        (fun digit member => allDigits digit (List.mem_of_mem_drop member)), ?_⟩
      have exponent :
          -((digits.drop point.toNat).length : Int) =
            point - digits.length := by
        simp only [List.length_drop]
        omega
      rw [List.take_append_drop, exponent]

/-- The significant digits of a decimal are all of its digits up to some zeros. -/
theorem exists_zeros_ofDecimal (decimal : Decimal) :
    ∃ zeros,
      Nat.toDigits 10 decimal.coefficient =
        (ofDecimal decimal).digits ++ List.replicate zeros '0' := by
  let reversed := (Nat.toDigits 10 decimal.coefficient).reverse
  have onlyZeros :
      reversed.takeWhile (· = '0') =
        List.replicate (reversed.takeWhile (· = '0')).length '0' := by
    refine List.eq_replicate_of_mem ?_
    intro digit member
    simpa using List.all_eq_true.mp List.all_takeWhile digit member
  refine ⟨(reversed.takeWhile (· = '0')).length, ?_⟩
  calc
    Nat.toDigits 10 decimal.coefficient
        = (reversed.takeWhile (· = '0') ++
            reversed.dropWhile (· = '0')).reverse := by
          rw [List.takeWhile_append_dropWhile, List.reverse_reverse]
    _ = (ofDecimal decimal).digits ++
          (reversed.takeWhile (· = '0')).reverse :=
          List.reverse_append
    _ = _ := by
          rw [onlyZeros, List.reverse_replicate, List.length_replicate]

/-- The decimal that digits with a point stand for. -/
def decimal (written : Digits) : Decimal :=
  ⟨Nat.ofDigitChars 10 written.digits 0,
    written.point - written.digits.length⟩

/-- A decimal that is not zero has significant digits, and they round as it does. -/
theorem digits_ofDecimal
    {exact : Decimal}
    (nonzero : exact.coefficient ≠ 0) :
    (ofDecimal exact).digits ≠ [] ∧
      (∀ digit ∈ (ofDecimal exact).digits, digit.isDigit = true) ∧
      Binary64.rankOfDecimal (ofDecimal exact).decimal =
        Binary64.rankOfDecimal exact := by
  obtain ⟨zeros, allDigits⟩ := exists_zeros_ofDecimal exact
  have coefficient :
      exact.coefficient =
        Nat.ofDigitChars 10 (ofDecimal exact).digits 0 * 10 ^ zeros := by
    calc
      exact.coefficient
          = Nat.ofDigitChars 10
              (Nat.toDigits 10 exact.coefficient) 0 :=
            Nat.ofDigitChars_ten_toDigits.symm
      _ = _ := by
            rw [allDigits, Nat.ofDigitChars_append,
              Nat.ofDigitChars_replicate_zero, Nat.mul_comm]
  have exponent :
      (ofDecimal exact).point - (ofDecimal exact).digits.length =
        exact.exponent + zeros := by
    have total := congrArg List.length allDigits
    simp only [List.length_append, List.length_replicate] at total
    simp only [ofDecimal] at total ⊢
    omega
  refine ⟨?_, ?_, ?_⟩
  · intro noDigits
    rw [noDigits, Nat.ofDigitChars_nil, Nat.zero_mul] at coefficient
    exact nonzero coefficient
  · intro digit member
    have isWritten : digit ∈ Nat.toDigits 10 exact.coefficient := by
      rw [allDigits]
      exact List.mem_append_left _ member
    exact Nat.isDigit_of_mem_toDigits (by decide) (by decide) isWritten
  · rw [decimal, exponent, ← Binary64.rankOfDecimal_shift, ← coefficient]

/-- A decimal that is not zero, written in positions, rounds as before. -/
theorem rankOfDecimal_positional_ofDecimal
    {exact : Decimal}
    (nonzero : exact.coefficient ≠ 0) :
    ∃ written,
      Numeral.unsigned? (positional [] (ofDecimal exact)) = some written ∧
        Binary64.rankOfDecimal written = Binary64.rankOfDecimal exact := by
  obtain ⟨nonempty, digits, rounds⟩ := digits_ofDecimal nonzero
  obtain ⟨written, found, same⟩ :=
    rankOfDecimal_positional nonempty digits (ofDecimal exact).point
  exact ⟨written, found, same.trans rounds⟩

end Digits

namespace Numeral

/-- A numeral without a sign is a numeral. -/
theorem ofText?_of_unsigned?
    {text : List Char}
    {magnitude : Decimal}
    (found : unsigned? text = some magnitude) :
    ofText? text = some ⟨false, magnitude⟩ := by
  have unsigned : text.head? ≠ some '-' := by
    intro signed
    cases text with
    | nil =>
        simp at signed
    | cons first rest =>
        simp only [List.head?_cons, Option.some.injEq] at signed
        have notDigit : Char.isDigit '-' = false := by decide
        simp [unsigned?, signed, notDigit] at found
  unfold ofText?
  split
  · simp at unsigned
  · simp [found]

/-- A sign in front of a numeral is read as its sign. -/
theorem ofText?_signed
    {text : List Char}
    {magnitude : Decimal}
    (found : unsigned? text = some magnitude)
    (negative : Bool) :
    ofText? (NumberLayout.signed negative text) =
      some ⟨negative, magnitude⟩ := by
  cases negative with
  | false =>
      exact ofText?_of_unsigned? found
  | true =>
      simp [NumberLayout.signed, ofText?, found]

/-- What is read as a numeral without a sign consists of digits and points. -/
theorem mem_of_unsigned?
    {text : List Char}
    {magnitude : Decimal}
    (found : unsigned? text = some magnitude)
    {character : Char}
    (member : character ∈ text) :
    character.isDigit = true ∨ character = '.' := by
  rw [← List.takeWhile_append_dropWhile (p := Char.isDigit) (l := text)] at member
  rcases List.mem_append.mp member with inWhole | inRest
  · exact Or.inl (List.all_eq_true.mp List.all_takeWhile character inWhole)
  · simp only [unsigned?] at found
    split at found
    · rename_i nothingLeft
      simp [nothingLeft] at inRest
    · rename_i places left
      rw [left] at inRest
      split at found
      · simp at found
      · rename_i valid
        simp only [not_or, Bool.not_eq_false, List.all_eq_true] at valid
        rcases List.mem_cons.mp inRest with isPoint | inPlaces
        · exact Or.inr isPoint
        · exact Or.inl (valid.2.2 character inPlaces)
    · simp at found

end Numeral

namespace Value

/-- Not below a millionth, and below ten to the power 21, whatever the sign. -/
def IsModerate (number : Binary64) : Prop :=
  let magnitude : Binary64 := { number with negative := false }
  magnitude.less (Binary64.ofNumeral ⟨false, ⟨1, -6⟩⟩) = false ∧
    magnitude.less (Binary64.ofNumeral ⟨false, ⟨1, 21⟩⟩) = true

/-- The magnitudes without a power of ten are those of moderate size. -/
theorem isPlainNumber_iff
    {number : Binary64} :
    isPlainNumber number = true ↔ IsModerate number := by
  have greatestFinite :
      Binary64.rankOfDecimal ⟨1, 21⟩ ≤ Binary64.infinityRank :=
    Nat.min_le_right _ _
  have less_bound
      (bound : Decimal) :
      Binary64.less { number with negative := false }
          (Binary64.ofNumeral ⟨false, bound⟩) = true ↔
        number.rank ≤ Binary64.infinityRank ∧
          number.rank < Binary64.rankOfDecimal bound := by
    rw [Binary64.less_iff, Binary64.place_ofNumeral, Binary64.isNaN,
      decide_eq_false_iff_not, Nat.not_lt]
    simp only [Binary64.isNaN_ofNumeral, Binary64.place, true_and,
      Bool.false_eq_true, if_false, Int.ofNat_lt]
    rfl
  simp only [isPlainNumber, Bool.and_eq_true, decide_eq_true_eq, IsModerate]
  rw [Bool.eq_false_iff, ne_eq, less_bound, less_bound]
  omega

/-- The magnitudes without a power of ten are finite and not zero. -/
theorem rank_of_isPlainNumber
    {number : Binary64}
    (plain : isPlainNumber number = true) :
    0 < number.rank ∧ number.rank < Binary64.infinityRank := by
  simp only [isPlainNumber, Bool.and_eq_true, decide_eq_true_eq] at plain
  have leastPositive : 0 < Binary64.rankOfDecimal ⟨1, -6⟩ := by
    decide +kernel
  have greatestFinite :
      Binary64.rankOfDecimal ⟨1, 21⟩ ≤ Binary64.infinityRank :=
    Nat.min_le_right _ _
  omega

/-- The shortest digits of a finite number that is not zero are there. -/
theorem shortestDecimal_ne_zero
    {rank : Nat}
    (positive : 0 < rank)
    (finite : rank < Binary64.infinityRank) :
    (Binary64.shortestDecimal rank).coefficient ≠ 0 := by
  intro noDigits
  have rounds := Binary64.rankOfDecimal_shortestDecimal finite
  have := Binary64.rankOfDecimal_of_coefficient_eq_zero noDigits
  omega

/-- A finite number that is not zero is written as its sign and its magnitude. -/
theorem text_of_isFinite
    {number : Binary64}
    (positive : 0 < number.rank)
    (finite : number.rank < Binary64.infinityRank) :
    numberLayout.text number =
      NumberLayout.signed number.negative
        (numberLayout.magnitudeText number) := by
  have isNumber : number.isNaN = false := by
    simp only [Binary64.isNaN, decide_eq_false_iff_not]
    omega
  have notInfinite : number.isInfinite = false := by
    simp only [Binary64.isInfinite, decide_eq_false_iff_not]
    omega
  have notZero : number.isZero = false := by
    simp only [Binary64.isZero, decide_eq_false_iff_not]
    omega
  simp only [NumberLayout.text, isNumber, notInfinite, notZero, if_false,
    Bool.false_eq_true]

/-- A plain number is written as its sign and its shortest digits in their positions. -/
theorem text_eq_positional
    {number : Binary64}
    (plain : isPlainNumber number = true) :
    numberLayout.text number =
      NumberLayout.signed number.negative
        ((Digits.ofDecimal
          (Binary64.shortestDecimal number.rank)).positional []) := by
  obtain ⟨positive, finite⟩ := rank_of_isPlainNumber plain
  have positional : numberLayout.isPositional = isPlainNumber := by
    simp only [numberLayout]
  have wholeEnding : numberLayout.wholeEnding = [] := rfl
  simp only [text_of_isFinite positive finite, NumberLayout.magnitudeText,
    positional, plain, wholeEnding, if_true]

/-- A plain number is written as a sign and a numeral that rounds to its magnitude. -/
theorem text_of_isPlainNumber
    {number : Binary64}
    (plain : isPlainNumber number = true) :
    ∃ text magnitude,
      numberLayout.text number = NumberLayout.signed number.negative text ∧
        Numeral.unsigned? text = some magnitude ∧
        Binary64.rankOfDecimal magnitude = number.rank := by
  obtain ⟨positive, finite⟩ := rank_of_isPlainNumber plain
  obtain ⟨magnitude, found, same⟩ :=
    Digits.rankOfDecimal_positional_ofDecimal
      (shortestDecimal_ne_zero positive finite)
  exact
    ⟨_, magnitude, text_eq_positional plain, found,
      same.trans (Binary64.rankOfDecimal_shortestDecimal finite)⟩

/-- A zero is written without a sign. -/
theorem text_of_isZero
    {number : Binary64}
    (isZero : number.isZero = true) :
    numberLayout.text number = ['0'] := by
  have noRank : number.rank = 0 := by
    simpa only [Binary64.isZero, decide_eq_true_eq] using isZero
  have belowInfinity : 0 < Binary64.infinityRank := by decide
  have isNumber : number.isNaN = false := by
    simp only [Binary64.isNaN, decide_eq_false_iff_not]
    omega
  have notInfinite : number.isInfinite = false := by
    simp only [Binary64.isInfinite, decide_eq_false_iff_not]
    omega
  have unsigned : numberLayout.signedZero = false := by
    simp only [numberLayout]
  have wholeEnding : numberLayout.wholeEnding = [] := by
    simp only [numberLayout]
  simp only [NumberLayout.text, isNumber, notInfinite, isZero, unsigned,
    wholeEnding, Bool.and_false, NumberLayout.signed, if_true, if_false,
    Bool.false_eq_true]

/-- The zero without a sign agrees with every zero. -/
theorem agrees_of_isZero
    {number : Binary64}
    (isZero : number.isZero = true) :
    (Binary64.ofRank false 0).agrees number = true := by
  have noRank : number.rank = 0 := by
    simpa only [Binary64.isZero, decide_eq_true_eq] using isZero
  have rank : (Binary64.ofRank false 0).rank = 0 := rfl
  have belowInfinity : ¬Binary64.infinityRank < 0 := by decide
  have unsigned : (Binary64.ofRank false 0).negative = false := rfl
  cases sign : number.negative <;>
    simp [Binary64.agrees, Binary64.isNaN, Binary64.place, rank, noRank,
      belowInfinity, sign, unsigned]

/-- A plain number is the number that its text is the numeral of. -/
theorem ofNumeral_of_isPlainNumber
    {number : Binary64}
    (plain : isPlainNumber number = true) :
    ∃ numeral,
      Numeral.ofText? (numberLayout.text number) = some numeral ∧
        Binary64.ofNumeral numeral = number := by
  obtain ⟨text, magnitude, written, found, rounds⟩ :=
    text_of_isPlainNumber plain
  refine ⟨⟨number.negative, magnitude⟩, ?_, ?_⟩
  · rw [written]
    exact Numeral.ofText?_signed found number.negative
  · simp only [Binary64.ofNumeral, rounds]
    exact Binary64.ofRank_rank number

end Value

end AnchorScript
