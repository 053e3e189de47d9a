import Waterfall.Scalar

set_option autoImplicit false

namespace Waterfall

namespace Scalar

section

variable {α : Type} [Scalar α]

def isNumber (x : α) : Bool := x == x

class Ordered (α : Type) [Scalar α] : Prop where
  number_of_le {x y : α} : x ≤ y → isNumber x = true ∧ isNumber y = true
  le_trans {x y z : α} : x ≤ y → y ≤ z → x ≤ z
  le_of_not_lt {x y : α} : isNumber x = true → isNumber y = true → ¬ x < y → y ≤ x
  not_lt_of_le {x y : α} : x ≤ y → ¬ y < x
  le_of_lt {x y : α} : x < y → x ≤ y
  number_zero : isNumber (0 : α) = true

end

namespace Ordered

section

variable {α : Type} [Scalar α] [Ordered α] {x y low high : α}

theorem le_refl (number : isNumber x = true) : x ≤ x :=
  le_of_not_lt number number fun less => not_lt_of_le (le_of_lt less) less

theorem isNumber_of_abs_lt (less : abs x < y) : isNumber x = true := by
  unfold abs at less
  split at less
  next below => exact (number_of_le (le_of_lt below)).1
  next => exact (number_of_le (le_of_lt less)).1

theorem positive_nonneg (x : α) : 0 ≤ positive x := by
  unfold positive
  split
  next above => exact le_of_lt above
  next => exact le_refl number_zero

theorem clamp_within (number : isNumber (clamp x low high) = true) (ordered : low ≤ high) :
    low ≤ clamp x low high ∧ clamp x low high ≤ high := by
  obtain ⟨number_low, number_high⟩ := number_of_le ordered
  unfold clamp at number ⊢
  split
  next => exact ⟨le_refl number_low, ordered⟩
  next notBelow =>
    rw [if_neg notBelow] at number
    split
    next => exact ⟨ordered, le_refl number_high⟩
    next notAbove =>
      rw [if_neg notAbove] at number
      exact ⟨le_of_not_lt number number_low notBelow, le_of_not_lt number_high number notAbove⟩

theorem clamp_of_within (above : low ≤ x) (below : x ≤ high) : clamp x low high = x := by
  rw [clamp, if_neg (not_lt_of_le above), if_neg (not_lt_of_le below)]

theorem le_clamp (above : y ≤ x) (below : y ≤ high) : y ≤ clamp x low high := by
  unfold clamp
  split
  next less => exact le_trans above (le_of_lt less)
  next =>
    split
    next => exact below
    next => exact above

theorem clamp_le (below : x ≤ y) (above : low ≤ y) : clamp x low high ≤ y := by
  unfold clamp
  split
  next => exact above
  next =>
    split
    next less => exact le_trans (le_of_lt less) below
    next => exact below

theorem isNumber_clamp (ordered : low ≤ high) : isNumber (clamp x low high) = isNumber x := by
  obtain ⟨number_low, number_high⟩ := number_of_le ordered
  unfold clamp
  split
  next below => rw [number_low, (number_of_le (le_of_lt below)).1]
  next =>
    split
    next above => rw [number_high, (number_of_le (le_of_lt above)).2]
    next => rfl

end

end Ordered

end Scalar

end Waterfall
