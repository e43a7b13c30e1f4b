namespace AnchorScript

/-!
# Binary floating-point numbers of 64 bits

A number is kept as the three fields of its interchange format, so that every
pattern of 64 bits is one value and two values are the same only when their
bits are. Reading exponent and fraction together as one natural number, the
*rank*, orders the magnitudes: the rank counts how many magnitudes lie below.
Comparisons are comparisons of ranks, and need no arithmetic on the values.
-/

/- Powers are those that natural numbers have by themselves, whatever else is in scope. -/
attribute [local instance (2000)] instPowNat

/-- Sign, exponent field and fraction field of a binary64 number. -/
structure Binary64 where
  negative : Bool
  exponent : Fin 2048
  fraction : Fin (2 ^ (52 : Nat))
deriving Repr, DecidableEq

namespace Binary64

/-- Exponent and fraction as one number; larger magnitudes have larger ranks. -/
def rank (number : Binary64) : Nat :=
  number.exponent.val * 2 ^ (52 : Nat) + number.fraction.val

/-- The rank of the infinite magnitude: all exponent bits set and no fraction. -/
def infinityRank : Nat := 2047 * 2 ^ (52 : Nat)

/-- The number of a sign and a rank; ranks beyond all patterns wrap around. -/
def ofRank
    (negative : Bool)
    (rank : Nat) :
    Binary64 where
  negative := negative
  exponent := ⟨rank / 2 ^ (52 : Nat) % 2048, Nat.mod_lt _ (by decide)⟩
  fraction := ⟨rank % 2 ^ (52 : Nat), Nat.mod_lt _ (by decide)⟩

/-- The number that a pattern of 64 bits stands for. -/
def ofBits (bits : UInt64) : Binary64 :=
  ofRank (decide (2 ^ (63 : Nat) ≤ bits.toNat)) bits.toNat

/-- The 64 bits of a number, the sign in front. -/
def toBits (number : Binary64) : UInt64 :=
  UInt64.ofNat
    ((if number.negative then 2 ^ (63 : Nat) else 0) + number.rank)

/-- Patterns above infinity are not numbers. -/
def isNaN (number : Binary64) : Bool :=
  infinityRank < number.rank

/-- The two infinities. -/
def isInfinite (number : Binary64) : Bool :=
  number.rank = infinityRank

/-- Neither infinite nor not a number. -/
def isFinite (number : Binary64) : Bool :=
  number.rank < infinityRank

/-- The two zeros. -/
def isZero (number : Binary64) : Bool :=
  number.rank = 0

/--
The place of a number among all numbers: ranks below zero for negative ones.
Both zeros have the place zero.
-/
def place (number : Binary64) : Int :=
  if number.negative then -(number.rank : Int) else number.rank

/-- Numerically less; false whenever one side is not a number. -/
def less (left right : Binary64) : Bool :=
  !left.isNaN && !right.isNaN && left.place < right.place

/-- Numerically equal: the zeros are equal, and what is not a number equals nothing. -/
def agrees (left right : Binary64) : Bool :=
  !left.isNaN && !right.isNaN && left.place = right.place

/-- A rank below all patterns comes back from the number it makes. -/
theorem rank_ofRank
    {negative : Bool}
    {rank : Nat}
    (inRange : rank < 2 ^ (63 : Nat)) :
    (ofRank negative rank).rank = rank := by
  simp only [Binary64.rank, ofRank]
  omega

/-- Every number is the number of its sign and rank. -/
theorem ofRank_rank (number : Binary64) :
    ofRank number.negative number.rank = number := by
  obtain ⟨negative, exponent, fraction⟩ := number
  have exponentBound := exponent.isLt
  have fractionBound := fraction.isLt
  simp only [ofRank, Binary64.rank, mk.injEq, true_and]
  constructor <;> apply Fin.ext <;> simp only <;> omega

/-- Ranks have sixty-three bits. -/
theorem rank_lt (number : Binary64) :
    number.rank < 2 ^ (63 : Nat) := by
  have exponentBound := number.exponent.isLt
  have fractionBound := number.fraction.isLt
  simp only [Binary64.rank]
  omega

/-- The sign is the bit above the rank. -/
theorem toNat_toBits (number : Binary64) :
    number.toBits.toNat =
      (if number.negative then 2 ^ (63 : Nat) else 0) + number.rank := by
  have rankBound := number.rank_lt
  simp only [toBits, UInt64.toNat_ofNat']
  split <;> omega

/-- A number is the number of its bits. -/
theorem ofBits_toBits (number : Binary64) :
    ofBits number.toBits = number := by
  have rankBound := number.rank_lt
  have bits := number.toNat_toBits
  rw [ofBits, bits]
  conv => rhs; rw [← ofRank_rank number]
  simp only [ofRank, mk.injEq]
  cases number.negative <;> simp <;> omega

end Binary64

end AnchorScript
