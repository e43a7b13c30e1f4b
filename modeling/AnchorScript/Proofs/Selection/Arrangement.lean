import AnchorScript.Proofs.Number.Comparison
import AnchorScript.Selection.Arrangement
import Mathlib.Data.List.Sort

namespace AnchorScript

/-!
# Arranged items

What it means that items stand in the order that they say, ties as they stood
before. Items are told apart by their positions, so the arranged items are the
given ones, each as often as it was given. Arranging by numbers that can be
compared arranges in this sense.
-/

/-- The first of two items at their positions says less, or as much and stands before. -/
def Precedes
    {α : Type}
    (order : α → Binary64)
    (first second : α × Nat) :
    Prop :=
  (order first.1).less (order second.1) = true ∨
    (order first.1).agrees (order second.1) = true ∧ first.2 < second.2

/-- The items stand in the order that they say, ties in the order of their positions. -/
def IsArrangement
    {α : Type}
    (order : α → Binary64)
    (items arranged : List α) :
    Prop :=
  ∃ placed : List (α × Nat),
    placed.Perm items.zipIdx ∧
      placed.map Prod.fst = arranged ∧
      placed.Pairwise (Precedes order)

theorem Precedes.trans
    {α : Type}
    {order : α → Binary64}
    {first second third : α × Nat}
    (earlier : Precedes order first second)
    (later : Precedes order second third) :
    Precedes order first third := by
  simp only [Precedes, Binary64.less_iff, Binary64.agrees_iff]
    at earlier later ⊢
  rcases earlier with
      ⟨firstNumber, _, below⟩ | ⟨⟨firstNumber, _, same⟩, position⟩ <;>
    rcases later with
      ⟨_, thirdNumber, laterBelow⟩ |
        ⟨⟨_, thirdNumber, laterSame⟩, laterPosition⟩
  · exact Or.inl
      ⟨firstNumber, thirdNumber, Int.lt_trans below laterBelow⟩
  · exact Or.inl ⟨firstNumber, thirdNumber, laterSame ▸ below⟩
  · exact Or.inl ⟨firstNumber, thirdNumber, same ▸ laterBelow⟩
  · exact Or.inr
      ⟨⟨firstNumber, thirdNumber, same.trans laterSame⟩,
        Nat.lt_trans position laterPosition⟩

/-- Of two items that can be compared, the later precedes when it is less, else the earlier. -/
theorem precedes_of_position_lt
    {α : Type}
    {order : α → Binary64}
    {first second : α × Nat}
    (firstNumber : (order first.1).isNaN = false)
    (secondNumber : (order second.1).isNaN = false)
    (position : first.2 < second.2) :
    if (order second.1).less (order first.1) = false then
      Precedes order first second
    else
      Precedes order second first := by
  split
  · rename_i notLess
    rcases Binary64.less_or_agrees_or_less firstNumber secondNumber with
      below | same | above
    · exact Or.inl below
    · exact Or.inr ⟨same, position⟩
    · simp [notLess] at above
  · rename_i isLess
    exact Or.inl (by simpa using isLess)

private theorem pairwise_orderedInsert
    {α : Type}
    {relation placedBefore : α → α → Prop}
    [DecidableRel relation]
    (transitive :
      ∀ first second third,
        placedBefore first second →
        placedBefore second third →
        placedBefore first third)
    {item : α}
    {others : List α}
    (ordered : others.Pairwise placedBefore)
    (decided :
      ∀ other ∈ others,
        if relation item other then placedBefore item other
        else placedBefore other item) :
    (others.orderedInsert relation item).Pairwise placedBefore := by
  induction others with
  | nil =>
      exact List.pairwise_singleton _ _
  | cons first rest inductionHypothesis =>
      obtain ⟨firstBefore, restOrdered⟩ := List.pairwise_cons.mp ordered
      have atFirst := decided first List.mem_cons_self
      rw [List.orderedInsert_cons]
      split
      · rename_i stops
        rw [if_pos stops] at atFirst
        refine List.pairwise_cons.mpr ⟨?_, ordered⟩
        intro other member
        rcases List.mem_cons.mp member with isFirst | inRest
        · exact isFirst ▸ atFirst
        · exact transitive _ _ _ atFirst (firstBefore other inRest)
      · rename_i passes
        rw [if_neg passes] at atFirst
        refine List.pairwise_cons.mpr ⟨?_, ?_⟩
        · intro other member
          rcases (List.mem_orderedInsert relation).mp member with
            isItem | inRest
          · exact isItem ▸ atFirst
          · exact firstBefore other inRest
        · exact inductionHypothesis restOrdered fun other member =>
            decided other (List.mem_cons_of_mem _ member)

private theorem pairwise_insertionSort
    {α : Type}
    {relation placedBefore : α → α → Prop}
    [DecidableRel relation]
    (transitive :
      ∀ first second third,
        placedBefore first second →
        placedBefore second third →
        placedBefore first third)
    {items : List α}
    (decided :
      items.Pairwise fun item other =>
        if relation item other then placedBefore item other
        else placedBefore other item) :
    (items.insertionSort relation).Pairwise placedBefore := by
  induction items with
  | nil =>
      exact List.Pairwise.nil
  | cons item rest inductionHypothesis =>
      obtain ⟨itemDecided, restDecided⟩ := List.pairwise_cons.mp decided
      apply pairwise_orderedInsert transitive
        (inductionHypothesis restDecided)
      intro other member
      exact itemDecided other ((List.mem_insertionSort relation).mp member)

private theorem insertArranged_eq_orderedInsert
    {α : Type}
    (less : α → α → Bool)
    (item : α)
    (arranged : List α) :
    insertArranged less item arranged =
      arranged.orderedInsert (fun left right => less left right = false)
        item := by
  induction arranged with
  | nil =>
      rfl
  | cons last earlier inductionHypothesis =>
      cases decided : less item last <;>
        simp [insertArranged, decided, inductionHypothesis]

/-- Arranging is sorting by insertion, seen from the end. -/
theorem arrange_eq_reverse_insertionSort
    {α : Type}
    (less : α → α → Bool)
    (items : List α) :
    arrange less items =
      (items.reverse.insertionSort
        fun left right => less left right = false).reverse := by
  rw [arrange, List.insertionSort, List.foldr_reverse]
  simp only [insertArranged_eq_orderedInsert]

theorem arrange_map
    {α β : Type}
    (less : β → β → Bool)
    (label : α → β)
    (items : List α) :
    arrange less (items.map label) =
      (arrange (fun left right => less (label left) (label right))
        items).map label := by
  rw [arrange_eq_reverse_insertionSort, arrange_eq_reverse_insertionSort,
    List.map_reverse, ← List.map_reverse,
    List.map_insertionSort _
      (fun left right : β => less left right = false) label items.reverse
      (fun _ _ _ _ => Iff.rfl)]

/-- Arranging compares only the items that are there. -/
theorem arrange_congr
    {α : Type}
    {less less' : α → α → Bool}
    {items : List α}
    (same :
      ∀ left ∈ items, ∀ right ∈ items, less left right = less' left right) :
    arrange less items = arrange less' items := by
  have sameOnItems :
      (fun left right : { item // item ∈ items } =>
          less left.val right.val) =
        fun left right => less' left.val right.val := by
    funext left right
    exact same left.val left.property right.val right.property
  rw [← List.attach_map_subtype_val items, arrange_map, arrange_map,
    sameOnItems]

/-- The positions of a list ascend along it. -/
theorem positions_ascending
    {α : Type}
    (items : List α)
    (start : Nat) :
    (items.zipIdx start).Pairwise
      fun earlier later => earlier.2 < later.2 := by
  induction items generalizing start with
  | nil =>
      exact List.Pairwise.nil
  | cons first rest inductionHypothesis =>
      refine List.pairwise_cons.mpr ⟨?_, inductionHypothesis (start + 1)⟩
      intro later member
      exact (List.mem_zipIdx member).1

/-- Items whose orders can be compared are arranged by them. -/
theorem isArrangement_arrange
    {α : Type}
    {order : α → Binary64}
    {items : List α}
    (numbers : ∀ item ∈ items, (order item).isNaN = false) :
    IsArrangement order items
      (arrange (fun left right => (order left).less (order right)) items) := by
  let less (left right : α × Nat) : Bool :=
    (order left.1).less (order right.1)
  have isNumber
      {placed : α × Nat}
      (member : placed ∈ items.zipIdx) :
      (order placed.1).isNaN = false :=
    numbers placed.1 (List.fst_mem_of_mem_zipIdx member)
  refine ⟨arrange less items.zipIdx, ?_, ?_, ?_⟩
  · rw [arrange_eq_reverse_insertionSort]
    exact (List.reverse_perm _).trans
      ((List.perm_insertionSort _ _).trans (List.reverse_perm _))
  · rw [← arrange_map (fun left right => (order left).less (order right))
      Prod.fst, List.zipIdx_map_fst]
  · rw [arrange_eq_reverse_insertionSort, List.pairwise_reverse]
    apply pairwise_insertionSort fun _ _ _ later earlier =>
      earlier.trans later
    rw [List.pairwise_reverse]
    refine (positions_ascending items 0).imp_of_mem ?_
    intro earlier later earlierMember laterMember position
    exact precedes_of_position_lt
      (isNumber earlierMember) (isNumber laterMember) position

end AnchorScript
