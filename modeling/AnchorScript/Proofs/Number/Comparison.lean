import AnchorScript.Number.Rounding

namespace AnchorScript.Binary64

/-!
# Comparing numbers

What is not a number compares with nothing. All other numbers, infinities and
both zeros included, compare as their places do, so that of two of them one is
less or they agree. A numeral always has a number.
-/

/- Powers are those that natural numbers have by themselves, whatever else is in scope. -/
attribute [local instance (2000)] instPowNat

theorem less_iff
    {left right : Binary64} :
    left.less right = true ↔
      left.isNaN = false ∧ right.isNaN = false ∧ left.place < right.place := by
  simp [less, and_assoc]

theorem agrees_iff
    {left right : Binary64} :
    left.agrees right = true ↔
      left.isNaN = false ∧ right.isNaN = false ∧ left.place = right.place := by
  simp [agrees, and_assoc]

theorem agrees_self
    {number : Binary64}
    (isNumber : number.isNaN = false) :
    number.agrees number = true :=
  agrees_iff.mpr ⟨isNumber, isNumber, rfl⟩

theorem agrees_comm (left right : Binary64) :
    left.agrees right = right.agrees left := by
  rw [Bool.eq_iff_iff, agrees_iff, agrees_iff]
  exact
    ⟨fun ⟨leftNumber, rightNumber, same⟩ =>
        ⟨rightNumber, leftNumber, same.symm⟩,
      fun ⟨rightNumber, leftNumber, same⟩ =>
        ⟨leftNumber, rightNumber, same.symm⟩⟩

/-- Numbers that agree with the same number agree. -/
theorem agrees_of_agrees
    {first second read : Binary64}
    (firstAgrees : read.agrees first = true)
    (secondAgrees : read.agrees second = true) :
    first.agrees second = true := by
  obtain ⟨_, firstNumber, firstPlace⟩ := agrees_iff.mp firstAgrees
  obtain ⟨_, secondNumber, secondPlace⟩ := agrees_iff.mp secondAgrees
  exact agrees_iff.mpr
    ⟨firstNumber, secondNumber, firstPlace.symm.trans secondPlace⟩

/-- Two numbers that are numbers can be compared. -/
theorem less_or_agrees_or_less
    {left right : Binary64}
    (leftNumber : left.isNaN = false)
    (rightNumber : right.isNaN = false) :
    left.less right = true ∨
      left.agrees right = true ∨
      right.less left = true := by
  rcases Int.lt_trichotomy left.place right.place with below | same | above
  · exact Or.inl (less_iff.mpr ⟨leftNumber, rightNumber, below⟩)
  · exact Or.inr (Or.inl (agrees_iff.mpr ⟨leftNumber, rightNumber, same⟩))
  · exact Or.inr (Or.inr (less_iff.mpr ⟨rightNumber, leftNumber, above⟩))

/-- A magnitude that is not infinite is a number. -/
theorem isNaN_of_lt
    {number : Binary64}
    (finite : number.rank < infinityRank) :
    number.isNaN = false := by
  rw [isNaN, decide_eq_false_iff_not, Nat.not_lt]
  exact Nat.le_of_lt finite

theorem isNaN_ofRank
    {negative : Bool}
    {rank : Nat}
    (bounded : rank ≤ infinityRank) :
    (ofRank negative rank).isNaN = false := by
  have inRange : rank < 2 ^ (63 : Nat) :=
    Nat.lt_of_le_of_lt bounded (by decide)
  rw [isNaN, rank_ofRank inRange, decide_eq_false_iff_not]
  exact Nat.not_lt.mpr bounded

/-- A numeral that is too large has an infinite number, and none has no number. -/
theorem isNaN_ofNumeral (numeral : Numeral) :
    (ofNumeral numeral).isNaN = false :=
  isNaN_ofRank (Nat.min_le_right _ _)

theorem rank_ofNumeral (numeral : Numeral) :
    (ofNumeral numeral).rank = rankOfDecimal numeral.magnitude := by
  have bounded : rankOfDecimal numeral.magnitude ≤ infinityRank :=
    Nat.min_le_right _ _
  exact rank_ofRank (Nat.lt_of_le_of_lt bounded (by decide))

/-- The place of a numeral's number is the rank of its decimal, with its sign. -/
theorem place_ofNumeral (numeral : Numeral) :
    (ofNumeral numeral).place =
      if numeral.negative then -(rankOfDecimal numeral.magnitude : Int)
      else rankOfDecimal numeral.magnitude := by
  rw [place, rank_ofNumeral]
  rfl

end AnchorScript.Binary64
