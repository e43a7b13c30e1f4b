import AnchorScript.Proofs.Modifiers.LastWrite
import AnchorScript.Proofs.Number.Comparison
import AnchorScript.Proofs.Number.ReadBack

namespace AnchorScript

/-!
# Modifiers that agree

Numbers agree when they are numerically equal, which only the two zeros are
without being the same. Values that agree are written alike, and modifiers agree
just when their answers to every lookup do.
-/

namespace Binary64

/-- Numbers that agree are the same, or both are zeros. -/
theorem eq_or_isZero_of_agrees
    {left right : Binary64}
    (same : left.agrees right = true) :
    left = right ∨ left.isZero = true ∧ right.isZero = true := by
  obtain ⟨_, _, samePlace⟩ := agrees_iff.mp same
  by_cases leftZero : left.rank = 0
  · refine Or.inr ⟨decide_eq_true leftZero, decide_eq_true ?_⟩
    unfold place at samePlace
    split at samePlace <;> split at samePlace <;> omega
  · refine Or.inl ?_
    have fields : left.negative = right.negative ∧ left.rank = right.rank := by
      unfold place at samePlace
      cases leftSign : left.negative <;> cases rightSign : right.negative <;>
        simp only [leftSign, rightSign, if_true, if_false, Bool.false_eq_true]
          at samePlace <;>
        refine ⟨by first | rfl | (exfalso; omega), by omega⟩
    rw [← ofRank_rank left, ← ofRank_rank right, fields.1, fields.2]

/-- Numbers that agree are both finite or both infinite. -/
theorem isFinite_of_agrees
    {left right : Binary64}
    (same : left.agrees right = true) :
    left.isFinite = right.isFinite := by
  obtain isSame | ⟨leftZero, rightZero⟩ := eq_or_isZero_of_agrees same
  · rw [isSame]
  · have leftRank : left.rank = 0 := of_decide_eq_true leftZero
    have rightRank : right.rank = 0 := of_decide_eq_true rightZero
    rw [isFinite, isFinite, leftRank, rightRank]

end Binary64

namespace Value

/-- Values that agree have the same text. -/
theorem render_of_agrees
    {left right : Value}
    (same : left.agrees right = true) :
    left.render = right.render := by
  cases left with
  | flag truth =>
      cases right with
      | flag other => rw [show truth = other from of_decide_eq_true same]
      | number _ => cases same
      | text _ => cases same
  | number binary =>
      cases right with
      | flag _ => cases same
      | number other =>
          obtain isSame | ⟨isZero, otherZero⟩ :=
            Binary64.eq_or_isZero_of_agrees same
          · rw [isSame]
          · simp only [render, text_of_isZero isZero, text_of_isZero otherZero]
      | text _ => cases same
  | text written =>
      cases right with
      | flag _ => cases same
      | number _ => cases same
      | text other => rw [show written = other from of_decide_eq_true same]

end Value

namespace Modifiers

/-- An entry is written as its key and the text of its value, which only a text quotes. -/
private theorem renderEntry_of_agrees
    {entry other : String × Value}
    (sameKey : entry.1 = other.1)
    (same : entry.2.agrees other.2 = true) :
    renderEntry entry = renderEntry other := by
  have sameText := Value.render_of_agrees same
  obtain ⟨key, value⟩ := entry
  obtain ⟨otherKey, otherValue⟩ := other
  simp only at sameKey same sameText
  cases value with
  | flag truth =>
      cases otherValue with
      | flag _ => simp only [renderEntry, sameKey, sameText]
      | number _ => cases same
      | text _ => cases same
  | number binary =>
      cases otherValue with
      | flag _ => cases same
      | number _ => simp only [renderEntry, sameKey, sameText]
      | text _ => cases same
  | text written =>
      cases otherValue with
      | flag _ => cases same
      | number _ => cases same
      | text _ =>
          have sameWritten := of_decide_eq_true same
          simp only [renderEntry, sameKey, sameWritten]

/-- Modifiers agree when their entries stand in pairs that agree. -/
theorem agrees_iff_forall₂
    {left right : Modifiers} :
    left.agrees right = true ↔
      List.Forall₂
        (fun entry other =>
          entry.1 = other.1 ∧ entry.2.agrees other.2 = true)
        left.entries right.entries := by
  rw [agrees, Bool.and_eq_true, decide_eq_true_eq, List.all_eq_true,
    List.forall₂_iff_zip]
  simp only [Bool.and_eq_true, decide_eq_true_eq, Prod.forall]

/-- Modifiers agree just when every key has values that agree, or none, in both. -/
theorem agrees_iff_get?
    {left right : Modifiers} :
    left.agrees right = true ↔
      ∀ key,
        Option.Rel (fun value other => value.agrees other = true)
          (left.get? key) (right.get? key) :=
  agrees_iff_forall₂.trans
    (forall₂_entries_iff fun value other => value.agrees other = true)

/-- Modifiers that agree are written alike. -/
theorem render_of_agrees
    {left right : Modifiers}
    (same : left.agrees right = true) :
    left.render = right.render := by
  have entries :
      left.entries.map renderEntry = right.entries.map renderEntry := by
    rw [← List.forall₂_eq_eq_eq, List.forall₂_map_left_iff,
      List.forall₂_map_right_iff]
    exact (agrees_iff_forall₂.mp same).imp fun _ _ agree =>
      renderEntry_of_agrees agree.1 agree.2
  rw [render, render, entries]

end Modifiers

end AnchorScript
