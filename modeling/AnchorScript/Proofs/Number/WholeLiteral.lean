import AnchorScript.Proofs.Number.Comparison
import AnchorScript.Proofs.Number.WholeDigits
import AnchorScript.Proofs.Reader.WrittenStatement
import AnchorScript.Proofs.Selection.Arrangement

namespace AnchorScript

/-!
# Whole numbers as literals

The literal of a whole number of at most 53 bits keeps its text: whatever blanks
stand around it, it is read as a number, and the number is written as the
literal was. The numbers compare as the whole numbers do, and so do statements
that say their places by such literals.
-/

/- Powers are those that natural numbers have by themselves, whatever else is in scope. -/
attribute [local instance (2000)] instPowNat

namespace Numeral

/-- The numeral of a whole number; zero has no sign. -/
def ofInt (whole : Int) : Numeral :=
  ⟨decide (whole < 0), ⟨whole.natAbs, 0⟩⟩

/-- The literal is the decimal text of a whole number, with blanks around it. -/
def IsLiteralOf
    (literal : List Char)
    (whole : Int) :
    Prop :=
  ∃ before after,
    (∀ character ∈ before, Text.isBlank character = true) ∧
      (∀ character ∈ after, Text.isBlank character = true) ∧
      literal = before ++ (toString whole).toList ++ after

/-- A whole number is written as its sign and its digits. -/
theorem toList_toString (whole : Int) :
    (toString whole).toList =
      NumberLayout.signed (decide (whole < 0))
        (Nat.toDigits 10 whole.natAbs) := by
  cases whole with
  | ofNat magnitude =>
      have notNegative : ¬(Int.ofNat magnitude < 0) := by
        exact Int.not_lt.mpr (Int.natCast_nonneg magnitude)
      simp only [notNegative, decide_false, NumberLayout.signed,
        Bool.false_eq_true, if_false]
      exact Nat.toList_repr
  | negSucc magnitude =>
      have negative : Int.negSucc magnitude < 0 :=
        Int.negSucc_lt_zero magnitude
      simp only [negative, decide_true, NumberLayout.signed, if_true]
      calc
        (toString (Int.negSucc magnitude)).toList
            = ("-" ++ (magnitude + 1).repr).toList := rfl
        _ = '-' :: Nat.toDigits 10 (magnitude + 1) := by
              rw [String.toList_append, Nat.toList_repr]
              rfl

theorem ofText?_toString (whole : Int) :
    ofText? (toString whole).toList = some (ofInt whole) := by
  have found :
      unsigned? (Nat.toDigits 10 whole.natAbs) =
        some ⟨whole.natAbs, 0⟩ := by
    rw [unsigned?_whole Nat.toDigits_ne_nil
        (fun digit member =>
          Nat.isDigit_of_mem_toDigits (by decide) (by decide) member),
      Nat.ofDigitChars_ten_toDigits]
  rw [toList_toString]
  exact ofText?_signed found _

end Numeral

namespace Binary64

variable {first second whole : Int}

/-- The place of a whole number is the rank of its magnitude, with its sign. -/
theorem place_ofInt (whole : Int) :
    (ofNumeral (.ofInt whole)).place =
      if whole < 0 then -(rankOfDecimal ⟨whole.natAbs, 0⟩ : Int)
      else rankOfDecimal ⟨whole.natAbs, 0⟩ := by
  simp only [place_ofNumeral, Numeral.ofInt, decide_eq_true_eq]

/-- Whole numbers of at most 53 bits have their places in their order. -/
theorem place_ofInt_lt_iff
    (firstBounded : first.natAbs ≤ 2 ^ (53 : Nat))
    (secondBounded : second.natAbs ≤ 2 ^ (53 : Nat)) :
    (ofNumeral (.ofInt first)).place < (ofNumeral (.ofInt second)).place ↔
      first < second := by
  have zero : rankOfDecimal ⟨0, 0⟩ = 0 :=
    rankOfDecimal_of_coefficient_eq_zero rfl
  have firstPositive := rankOfDecimal_lt_iff (Nat.zero_le _) firstBounded
  have secondPositive := rankOfDecimal_lt_iff (Nat.zero_le _) secondBounded
  have below := rankOfDecimal_lt_iff firstBounded secondBounded
  have above := rankOfDecimal_lt_iff secondBounded firstBounded
  rw [zero] at firstPositive secondPositive
  rw [place_ofInt, place_ofInt]
  split <;> split <;> omega

/--
The comparison by which statements are arranged. Where neither is less, also
where one is not a number, they count as equal.
-/
def comparison (left right : Binary64) : Ordering :=
  if left.less right then .lt
  else if right.less left then .gt
  else .eq

/-- Being less is what the comparison says. -/
theorem less_eq_comparison (left right : Binary64) :
    left.less right = (left.comparison right == .lt) := by
  unfold comparison
  cases left.less right <;> cases right.less left <;> rfl

theorem less_ofInt
    (firstBounded : first.natAbs ≤ 2 ^ (53 : Nat))
    (secondBounded : second.natAbs ≤ 2 ^ (53 : Nat)) :
    (ofNumeral (.ofInt first)).less (ofNumeral (.ofInt second)) =
      decide (first < second) := by
  rw [Bool.eq_iff_iff, decide_eq_true_eq, less_iff, isNaN_ofNumeral,
    isNaN_ofNumeral, place_ofInt_lt_iff firstBounded secondBounded]
  simp only [true_and]

/-- Whole numbers of at most 53 bits compare alike as numbers. -/
theorem comparison_ofInt
    (firstBounded : first.natAbs ≤ 2 ^ (53 : Nat))
    (secondBounded : second.natAbs ≤ 2 ^ (53 : Nat)) :
    (ofNumeral (.ofInt first)).comparison (ofNumeral (.ofInt second)) =
      compare first second := by
  simp only [comparison, less_ofInt firstBounded secondBounded,
    less_ofInt secondBounded firstBounded, decide_eq_true_eq]
  rcases Int.lt_trichotomy first second with below | same | above
  · rw [if_pos below, Int.compare_eq_lt.mpr below]
  · rw [same, if_neg (Int.lt_irrefl _), if_neg (Int.lt_irrefl _),
      Int.compare_eq_eq.mpr rfl]
  · rw [if_neg (Int.lt_asymm above), if_pos above,
      Int.compare_eq_gt.mpr above]

end Binary64

namespace Value

variable {whole : Int}

/-- A whole number of at most 53 bits, unless it is zero, has no power of ten. -/
theorem isPlainNumber_ofInt
    (nonzero : whole ≠ 0)
    (bounded : whole.natAbs ≤ 2 ^ (53 : Nat)) :
    isPlainNumber (Binary64.ofNumeral (.ofInt whole)) = true := by
  have leastBelowOne :
      Binary64.rankOfDecimal ⟨1, -6⟩ ≤ Binary64.rankOfDecimal ⟨1, 0⟩ := by
    decide +kernel
  have boundBelowGreatest :
      Binary64.rankOfDecimal ⟨2 ^ (53 : Nat), 0⟩ <
        Binary64.rankOfDecimal ⟨1, 21⟩ := by
    decide +kernel
  have aboveOne :=
    Binary64.rankOfDecimal_lt_iff bounded (show 1 ≤ 2 ^ (53 : Nat) by decide)
  have belowBound :=
    Binary64.rankOfDecimal_lt_iff (Nat.le_refl (2 ^ (53 : Nat))) bounded
  simp only [isPlainNumber, Binary64.rank_ofNumeral, Numeral.ofInt,
    Bool.and_eq_true, decide_eq_true_eq]
  omega

/-- A whole number of at most 53 bits is rendered as its decimal text. -/
theorem render_ofInt
    (bounded : whole.natAbs ≤ 2 ^ (53 : Nat)) :
    render (.number (Binary64.ofNumeral (.ofInt whole))) = toString whole := by
  apply String.toList_injective
  rw [render, String.toList_ofList]
  by_cases isZero : whole = 0
  · subst isZero
    have noRank :
        (Binary64.ofNumeral (.ofInt 0)).isZero = true := by
      decide +kernel
    rw [text_of_isZero noRank]
    rfl
  · have plain := isPlainNumber_ofInt isZero bounded
    have units :=
      Binary64.units_of_hasRank (Binary64.hasRank_of_le bounded)
        (Decimal.hasValue_whole whole.natAbs)
    rw [text_eq_positional plain, Binary64.rank_ofNumeral,
      Numeral.toList_toString]
    exact congrArg (NumberLayout.signed _)
      (Binary64.positional_shortestDecimal (by omega) bounded units)

/-- The literal of a whole number is read as the number of its numeral. -/
theorem ofLiteral_of_isLiteralOf
    {literal : List Char}
    (isLiteral : Numeral.IsLiteralOf literal whole) :
    ofLiteral literal = .number (Binary64.ofNumeral (.ofInt whole)) := by
  obtain ⟨before, after, blanksBefore, blanksAfter, rfl⟩ := isLiteral
  rw [← ofLiteral_of_numeral (Numeral.ofText?_toString whole)]
  simp only [ofLiteral, Text.trim_append_blanks _ blanksAfter,
    Text.trim_blanks_append blanksBefore]

/--
A literal of a whole number of at most 53 bits is read as a number. Looked up as
text it is the decimal text again, and with another such number it compares as
the whole numbers do.
-/
theorem ofLiteral_wholeNumber
    {literal : List Char}
    (bounded : whole.natAbs ≤ 2 ^ (53 : Nat))
    (isLiteral : Numeral.IsLiteralOf literal whole) :
    ∃ number,
      ofLiteral literal = .number number ∧
        (∀ (statement : Statement) (key : String),
          statement.modifier? key = some (ofLiteral literal) →
            statement.text? key = some (toString whole)) ∧
        ∀ (other : Int) (otherLiteral : List Char),
          other.natAbs ≤ 2 ^ (53 : Nat) →
            Numeral.IsLiteralOf otherLiteral other →
              ∃ otherNumber,
                ofLiteral otherLiteral = .number otherNumber ∧
                  number.comparison otherNumber = compare whole other := by
  have isNumber := ofLiteral_of_isLiteralOf isLiteral
  refine ⟨_, isNumber, ?_, ?_⟩
  · intro statement key found
    rw [Statement.text?, found, isNumber, Option.map_some,
      render_ofInt bounded]
  · intro other otherLiteral otherBounded isOther
    exact
      ⟨_, ofLiteral_of_isLiteralOf isOther,
        Binary64.comparison_ofInt bounded otherBounded⟩

/-- The largest such number, with blanks around it, is kept and not its neighbour. -/
theorem ofLiteral_wholeNumber_largest :
    let literal := "\t9007199254740992 ".toList
    let neighbour := "9007199254740991".toList
    let statement : Statement :=
      ⟨Anchor.ofText ['s'], Anchor.ofText ['t'],
        Modifiers.ofList [("count", ofLiteral literal)]⟩
    statement.text? "count" = some "9007199254740992" ∧
      ∃ number neighbourNumber,
        ofLiteral literal = .number number ∧
          ofLiteral neighbour = .number neighbourNumber ∧
          number.comparison neighbourNumber = .gt := by
  intro literal neighbour statement
  have isLiteral : Numeral.IsLiteralOf literal 9007199254740992 :=
    ⟨['\t'], [' '],
      List.forall_mem_singleton.mpr (by decide),
      List.forall_mem_singleton.mpr (by decide),
      by decide +kernel⟩
  have isNeighbour : Numeral.IsLiteralOf neighbour 9007199254740991 :=
    ⟨[], [], List.forall_mem_nil _, List.forall_mem_nil _,
      by decide +kernel⟩
  have counted : statement.modifier? "count" = some (ofLiteral literal) := by
    decide +kernel
  obtain ⟨number, isNumber, asText, compares⟩ :=
    ofLiteral_wholeNumber (by decide) isLiteral
  obtain ⟨neighbourNumber, isNeighbourNumber, isGreater⟩ :=
    compares _ _ (by decide) isNeighbour
  exact
    ⟨asText statement "count" counted,
      number, neighbourNumber, isNumber, isNeighbourNumber, isGreater⟩

end Value

namespace Statement

/-- Statements are arranged by comparing their places. -/
theorem arrangeByOrder_eq_arrange_comparison
    (statements : List Statement) :
    arrangeByOrder statements =
      arrange
        (fun left right => left.order.comparison right.order == .lt)
        statements := by
  simp only [arrangeByOrder, Binary64.less_eq_comparison]

/-- A statement that says a number has it as its place. -/
theorem order_of_number
    {statement : Statement}
    {place : Binary64}
    (found : statement.modifier? orderKey = some (.number place)) :
    statement.order = place := by
  simp only [order, found, Option.bind_some, Value.number?,
    Option.getD_some]

/--
Statements that say their places by literals of whole numbers are arranged as
the whole numbers are.
-/
theorem arrangeByOrder_wholeNumbers
    {statements : List Statement}
    {placeOf : Statement → Int}
    (places :
      ∀ statement ∈ statements,
        (placeOf statement).natAbs ≤ 2 ^ (53 : Nat) ∧
          ∃ literal,
            Numeral.IsLiteralOf literal (placeOf statement) ∧
              statement.modifier? orderKey = some (Value.ofLiteral literal)) :
    arrangeByOrder statements =
      arrange (fun left right => decide (placeOf left < placeOf right))
        statements := by
  have order_eq
      {statement : Statement}
      (member : statement ∈ statements) :
      statement.order =
        Binary64.ofNumeral (.ofInt (placeOf statement)) := by
    obtain ⟨_, literal, isLiteral, found⟩ := places statement member
    exact order_of_number
      (found.trans (congrArg some (Value.ofLiteral_of_isLiteralOf isLiteral)))
  rw [arrangeByOrder_eq_arrange_comparison]
  apply arrange_congr
  intro left leftMember right rightMember
  rw [order_eq leftMember, order_eq rightMember,
    Binary64.comparison_ofInt
      (places left leftMember).1 (places right rightMember).1,
    Bool.eq_iff_iff, beq_iff_eq, Int.compare_eq_lt, decide_eq_true_eq]

end Statement

end AnchorScript
