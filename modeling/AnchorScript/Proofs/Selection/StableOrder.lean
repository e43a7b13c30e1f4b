import AnchorScript.Proofs.Selection.Ties

namespace AnchorScript

/-!
# The one stable order

An ascending arrangement of items in which ties stand as they stood before is
determined by the items. Arranging gives it, so whatever keeps these properties
can be done before or after arranging: arranging once more, and selecting.
-/

/-- The given items in ascending order, those of one place as they stood. -/
structure IsStablyArranged
    {α : Type}
    (order : α → Binary64)
    (items arranged : List α) :
    Prop where
  permuted : arranged.Perm items
  ascending : Ascending order arranged
  ties :
    ∀ place, tiedAt order place arranged = tiedAt order place items

section StableOrder

variable
  {α : Type}
  {order : α → Binary64}
  {items arranged : List α}

theorem isStablyArranged_arrange
    (numbers : ∀ item ∈ items, (order item).isNaN = false) :
    IsStablyArranged order items
      (arrange (fun left right => (order left).less (order right)) items) := by
  have isArrangement := isArrangement_arrange numbers
  exact
    ⟨isArrangement.perm, isArrangement.ascending, isArrangement.tiedAt_eq⟩

/-- Items that can be compared have only one stable order. -/
theorem IsStablyArranged.unique
    {other : List α}
    (numbers : ∀ item ∈ items, (order item).isNaN = false)
    (first : IsStablyArranged order items arranged)
    (second : IsStablyArranged order items other) :
    arranged = other := by
  apply Ascending.eq_of_perm _ first.ascending second.ascending
    (first.permuted.trans second.permuted.symm)
  · intro item _
    exact (first.ties (order item)).trans (second.ties (order item)).symm
  · intro item member
    exact numbers item (first.permuted.mem_iff.mp member)

/-- Ascending items stand in their stable order already. -/
theorem Ascending.isStablyArranged
    (ascending : Ascending order items) :
    IsStablyArranged order items items :=
  ⟨List.Perm.refl items, ascending, fun _ => rfl⟩

/-- What is selected of a stable order is the stable order of what is selected. -/
theorem IsStablyArranged.filter
    (isArranged : IsStablyArranged order items arranged)
    (selects : α → Bool) :
    IsStablyArranged order
      (items.filter selects) (arranged.filter selects) where
  permuted := isArranged.permuted.filter selects
  ascending := List.Pairwise.filter selects isArranged.ascending
  ties := by
    intro place
    have commuted
        (list : List α) :
        tiedAt order place (list.filter selects) =
          (tiedAt order place list).filter selects := by
      simp only [tiedAt, List.filter_filter, Bool.and_comm]
    rw [commuted, commuted, isArranged.ties]

end StableOrder

namespace Statement

/-- The statement says 999, or has no number to say its place. -/
def countsAsUnplaced (statement : Statement) : Bool :=
  match statement.modifier? orderKey with
  | some (.number place) => place.agrees (Binary64.ofNumeral ⟨false, ⟨999, 0⟩⟩)
  | _ => true

/-- Without a number the place is that of 999. -/
theorem agrees_defaultOrder (statement : Statement) :
    statement.order.agrees defaultOrder = statement.countsAsUnplaced := by
  have isNumber : defaultOrder.isNaN = false :=
    Binary64.isNaN_ofNumeral _
  have agreesSelf := Binary64.agrees_self isNumber
  unfold order countsAsUnplaced
  cases statement.modifier? orderKey with
  | none =>
      exact agreesSelf
  | some value =>
      cases value with
      | flag truth => exact agreesSelf
      | number place => rfl
      | text written => exact agreesSelf

/--
Statements whose places can be compared are put into their stable order.
Statements without a number keep their order among themselves and those that say
999. Arranging them again changes nothing, and selecting may come first.
-/
theorem arrangeByOrder_stable
    {statements : List Statement}
    (numbers : ∀ statement ∈ statements, statement.order.isNaN = false) :
    IsStablyArranged order statements (arrangeByOrder statements) ∧
      (arrangeByOrder statements).filter countsAsUnplaced =
        statements.filter countsAsUnplaced ∧
      arrangeByOrder (arrangeByOrder statements) =
        arrangeByOrder statements ∧
      ∀ selects : Statement → Bool,
        (arrangeByOrder statements).filter selects =
          arrangeByOrder (statements.filter selects) := by
  have isArranged :
      IsStablyArranged order statements (arrangeByOrder statements) :=
    isStablyArranged_arrange numbers
  have arrangedNumbers :
      ∀ statement ∈ arrangeByOrder statements,
        statement.order.isNaN = false :=
    fun statement member =>
      numbers statement (isArranged.permuted.mem_iff.mp member)
  have selectedNumbers
      (selects : Statement → Bool) :
      ∀ statement ∈ statements.filter selects,
        statement.order.isNaN = false :=
    fun statement member => numbers statement (List.mem_of_mem_filter member)
  refine ⟨isArranged, ?_, ?_, ?_⟩
  · simpa only [tiedAt, agrees_defaultOrder] using
      isArranged.ties defaultOrder
  · exact (isStablyArranged_arrange arrangedNumbers).unique arrangedNumbers
      isArranged.ascending.isStablyArranged
  · intro selects
    exact (isArranged.filter selects).unique (selectedNumbers selects)
      (isStablyArranged_arrange (selectedNumbers selects))

/--
A missing place, a text, a flag and 999 are one place, and so are the zeros;
they stand between the infinities as they stood before.
-/
theorem arrangeByOrder_stable_mixed :
    let placed (target : String) (modifiers : Modifiers) : Statement :=
      ⟨Anchor.ofText ['s'], Anchor.ofText target.toList, modifiers⟩
    let numbered (target : String) (place : Binary64) : Statement :=
      placed target (Modifiers.ofList [(orderKey, .number place)])
    let missing := placed "a" Modifiers.empty
    let above := numbered "b" ⟨false, 2047, 0⟩
    let text := placed "c" (Modifiers.ofList [(orderKey, .text "1")])
    let positive := numbered "d" ⟨false, 0, 0⟩
    let explicit := numbered "e" defaultOrder
    let flag := placed "f" (Modifiers.ofList [(orderKey, .flag true)])
    let negative := numbered "g" ⟨true, 0, 0⟩
    let below := numbered "h" ⟨true, 2047, 0⟩
    let statements :=
      [missing, above, text, positive, explicit, flag, negative, below]
    let arranged :=
      [below, positive, negative, missing, text, explicit, flag, above]
    (∀ statement ∈ statements, statement.order.isNaN = false) ∧
      arrangeByOrder statements = arranged ∧
      IsStablyArranged order statements arranged ∧
      statements.filter countsAsUnplaced = [missing, text, explicit, flag] ∧
      arranged.filter countsAsUnplaced = [missing, text, explicit, flag] ∧
      arrangeByOrder arranged = arranged ∧
      ∀ selects : Statement → Bool,
        arranged.filter selects =
          arrangeByOrder (statements.filter selects) := by
  intro placed numbered missing above text positive explicit flag negative
    below statements arranged
  have numbers :
      ∀ statement ∈ statements, statement.order.isNaN = false := by
    decide +kernel
  have isResult : arrangeByOrder statements = arranged := by
    decide +kernel
  have unplaced :
      statements.filter countsAsUnplaced =
        [missing, text, explicit, flag] := by
    decide +kernel
  obtain ⟨isArranged, keepsUnplaced, again, selecting⟩ :=
    arrangeByOrder_stable numbers
  rw [isResult] at isArranged keepsUnplaced again selecting
  exact
    ⟨numbers, isResult, isArranged, unplaced, keepsUnplaced.trans unplaced,
      again, selecting⟩

end Statement

end AnchorScript
