import AnchorScript.Proofs.Selection.Arrangement

namespace AnchorScript

/-!
# Ties

Arranging puts the places in ascending order and leaves the items of one place
as they stood. Nothing is left to choose then: of the ways to put the same items
in ascending order there is only one for each way to put the ties.
-/

section Ties

variable
  {α : Type}
  {order : α → Binary64}

/-- The items that say a place, as they stand. -/
def tiedAt
    (order : α → Binary64)
    (place : Binary64)
    (items : List α) :
    List α :=
  items.filter fun item => (order item).agrees place

/-- No item says less than one that stands before it. -/
def Ascending
    (order : α → Binary64)
    (items : List α) :
    Prop :=
  items.Pairwise fun earlier later =>
    (order earlier).less (order later) = true ∨
      (order earlier).agrees (order later) = true

/-- Arranged items are the given ones. -/
theorem IsArrangement.perm
    {items arranged : List α}
    (isArrangement : IsArrangement order items arranged) :
    arranged.Perm items := by
  obtain ⟨placed, permuted, rfl, _⟩ := isArrangement
  have entries := permuted.map Prod.fst
  rwa [List.zipIdx_map_fst] at entries

theorem IsArrangement.ascending
    {items arranged : List α}
    (isArrangement : IsArrangement order items arranged) :
    Ascending order arranged := by
  obtain ⟨placed, _, rfl, ordered⟩ := isArrangement
  apply List.pairwise_map.mpr
  apply ordered.imp
  rintro earlier later (below | ⟨tied, _⟩)
  · exact Or.inl below
  · exact Or.inr tied

/-- Ties stand as they stood before. -/
theorem IsArrangement.tiedAt_eq
    {items arranged : List α}
    (isArrangement : IsArrangement order items arranged)
    (place : Binary64) :
    tiedAt order place arranged = tiedAt order place items := by
  obtain ⟨placed, permuted, rfl, ordered⟩ := isArrangement
  let isTied (entry : α × Nat) : Bool := (order entry.1).agrees place
  have tiedOf
      (entries : List (α × Nat)) :
      tiedAt order place (entries.map Prod.fst) =
        (entries.filter isTied).map Prod.fst :=
    List.filter_map
  -- Both sides hold the tied entries in ascending positions.
  have byPosition :
      (placed.filter isTied).Pairwise
        fun earlier later => earlier.2 < later.2 := by
    apply List.pairwise_filter.mpr
    apply ordered.imp
    intro earlier later precedes earlierTied laterTied
    rcases precedes with below | ⟨_, position⟩
    · obtain ⟨_, _, samePlace⟩ := Binary64.agrees_iff.mp earlierTied
      obtain ⟨_, _, laterPlace⟩ := Binary64.agrees_iff.mp laterTied
      obtain ⟨_, _, lower⟩ := Binary64.less_iff.mp below
      exact absurd (samePlace.trans laterPlace.symm) (Int.ne_of_lt lower)
    · exact position
  have sameEntries :
      placed.filter isTied = items.zipIdx.filter isTied := by
    apply List.Perm.eq_of_pairwise _ byPosition
      ((positions_ascending items 0).filter isTied)
      (permuted.filter isTied)
    intro earlier later _ _ before behind
    exact absurd before (Nat.lt_asymm behind)
  calc
    tiedAt order place (placed.map Prod.fst)
        = (items.zipIdx.filter isTied).map Prod.fst := by
          rw [tiedOf, sameEntries]
    _ = tiedAt order place items := by
          rw [← tiedOf, List.zipIdx_map_fst]

/-- Of two items that stand before each other in ascending lists, none says less. -/
private theorem agrees_of_mem_cons
    {first second : α}
    {rest others : List α}
    (isNumber : (order first).isNaN = false)
    (ascending : Ascending order (first :: rest))
    (othersAscending : Ascending order (second :: others))
    (inOthers : first ∈ second :: others)
    (inRest : second ∈ first :: rest) :
    (order second).agrees (order first) = true := by
  rcases List.mem_cons.mp inOthers with same | firstLater
  · rw [← same]
    exact Binary64.agrees_self isNumber
  rcases List.mem_cons.mp inRest with same | secondLater
  · rw [same]
    exact Binary64.agrees_self isNumber
  rcases List.rel_of_pairwise_cons othersAscending firstLater with
    secondBelow | tied
  · rcases List.rel_of_pairwise_cons ascending secondLater with
      firstBelow | tied
    · obtain ⟨_, _, lower⟩ := Binary64.less_iff.mp firstBelow
      obtain ⟨_, _, higher⟩ := Binary64.less_iff.mp secondBelow
      exact absurd lower (Int.lt_asymm higher)
    · exact (Binary64.agrees_comm _ _).trans tied
  · exact tied

/-- The same items in ascending order are the same list if their ties are. -/
theorem Ascending.eq_of_perm
    {first second : List α}
    (numbers : ∀ item ∈ first, (order item).isNaN = false)
    (firstAscending : Ascending order first)
    (secondAscending : Ascending order second)
    (permuted : first.Perm second)
    (ties :
      ∀ item ∈ first,
        tiedAt order (order item) first = tiedAt order (order item) second) :
    first = second := by
  induction first generalizing second with
  | nil =>
      exact permuted.nil_eq
  | cons head rest inductionHypothesis =>
      obtain ⟨headNumber, restNumbers⟩ := List.forall_mem_cons.mp numbers
      obtain ⟨headTies, restTies⟩ := List.forall_mem_cons.mp ties
      cases second with
      | nil =>
          exact permuted.eq_nil
      | cons other others =>
          have otherTied :
              (order other).agrees (order head) = true :=
            agrees_of_mem_cons headNumber firstAscending secondAscending
              (permuted.mem_iff.mp List.mem_cons_self)
              (permuted.mem_iff.mpr List.mem_cons_self)
          have same : head = other := by
            simp only [tiedAt, List.filter_cons, otherTied,
              Binary64.agrees_self headNumber, if_true] at headTies
            exact (List.cons.inj headTies).1
          subst same
          congr 1
          apply inductionHypothesis restNumbers
            (List.pairwise_cons.mp firstAscending).2
            (List.pairwise_cons.mp secondAscending).2 permuted.cons_inv
          intro item member
          have itemTies := restTies item member
          simp only [tiedAt, List.filter_cons] at itemTies ⊢
          split at itemTies
          · exact (List.cons.inj itemTies).2
          · exact itemTies

/-- Arranging forgets how items stood, except those of one place. -/
theorem arrange_eq_of_perm
    {left right : List α}
    (numbers : ∀ item ∈ left, (order item).isNaN = false)
    (permuted : left.Perm right)
    (ties :
      ∀ item ∈ left,
        tiedAt order (order item) left = tiedAt order (order item) right) :
    arrange (fun first second => (order first).less (order second)) left =
      arrange (fun first second => (order first).less (order second))
        right := by
  have rightNumbers : ∀ item ∈ right, (order item).isNaN = false :=
    fun item member => numbers item (permuted.mem_iff.mpr member)
  have leftArranged := isArrangement_arrange numbers
  have rightArranged := isArrangement_arrange rightNumbers
  apply Ascending.eq_of_perm
    (fun item member => numbers item (leftArranged.perm.mem_iff.mp member))
    leftArranged.ascending rightArranged.ascending
    (leftArranged.perm.trans (permuted.trans rightArranged.perm.symm))
  intro item member
  rw [leftArranged.tiedAt_eq, rightArranged.tiedAt_eq]
  exact ties item (leftArranged.perm.mem_iff.mp member)

/-- Where no two items say the same place, all ties are as they were. -/
theorem tiedAt_eq_of_distinct
    {left right : List α}
    (permuted : left.Perm right)
    (distinct :
      left.Pairwise fun first second =>
        (order first).agrees (order second) = false)
    (place : Binary64) :
    tiedAt order place left = tiedAt order place right := by
  have untied
      {items : List α}
      (itemsDistinct :
        items.Pairwise fun first second =>
          (order first).agrees (order second) = false) :
      (tiedAt order place items).Pairwise fun _ _ => False := by
    apply List.pairwise_filter.mpr
    apply itemsDistinct.imp
    intro first second different firstTied secondTied
    obtain ⟨firstNumber, _, firstPlace⟩ := Binary64.agrees_iff.mp firstTied
    obtain ⟨secondNumber, _, secondPlace⟩ :=
      Binary64.agrees_iff.mp secondTied
    have tied : (order first).agrees (order second) = true :=
      Binary64.agrees_iff.mpr
        ⟨firstNumber, secondNumber, firstPlace.trans secondPlace.symm⟩
    exact Bool.false_ne_true (different.symm.trans tied)
  have rightDistinct :
      right.Pairwise fun first second =>
        (order first).agrees (order second) = false := by
    apply (permuted.pairwise_iff _).mp distinct
    intro first second different
    exact (Binary64.agrees_comm _ _).trans different
  exact
    List.Perm.eq_of_pairwise (fun _ _ _ _ impossible => impossible.elim)
      (untied distinct) (untied rightDistinct) (permuted.filter _)

end Ties

end AnchorScript
