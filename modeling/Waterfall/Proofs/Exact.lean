import Mathlib.Analysis.SpecialFunctions.Log.Base
import Waterfall.Proofs.Ordered

set_option autoImplicit false

namespace Waterfall

namespace Scalar

noncomputable def nearestEven (x : ℝ) : ℕ :=
  let n := ⌊x⌋₊
  if x - n < 1 / 2 then n else if 1 / 2 < x - n then n + 1 else n + n % 2

noncomputable instance real : Scalar ℝ where
  decLt := inferInstance
  decLe := inferInstance
  ofNat n := n
  ofDecimal := OfScientific.ofScientific
  floor x := ⌊x⌋
  finite _ := true
  toWord x := Nat.min ⌊x⌋₊ (2 ^ 64 - 1)
  units places x := nearestEven (x * 10 ^ places)
  log10 := Real.logb 10
  pow x y := x ^ y
  epsilon := 2⁻¹ ^ 52

theorem nearestEven_natCast (n : ℕ) : nearestEven n = n := by
  have half : (n : ℝ) - n < 1 / 2 := by rw [sub_self]; norm_num
  simp only [nearestEven, Nat.floor_natCast]
  exact if_pos half

instance : Ordered ℝ where
  number_of_le _ := ⟨beq_self_eq_true _, beq_self_eq_true _⟩
  le_trans := LE.le.trans
  le_of_not_lt _ _ := not_lt.1
  not_lt_of_le := not_lt.2
  le_of_lt := LT.lt.le
  number_zero := beq_self_eq_true _

-- From two on, a numeral of a chart is by definition the numeral of the field.
@[simp] theorem real_zero : @OfNat.ofNat ℝ 0 (instOfNat 0) = 0 := Nat.cast_zero

@[simp] theorem real_one : @OfNat.ofNat ℝ 1 (instOfNat 1) = 1 := Nat.cast_one

theorem real_half : @OfScientific.ofScientific ℝ instOfScientific 5 true 1 = 1 / 2 := by
  change (OfScientific.ofScientific 5 true 1 : ℝ) = 1 / 2
  norm_num

theorem real_billionth : @OfScientific.ofScientific ℝ instOfScientific 1 true 9 = 1 / 10 ^ 9 := by
  change (OfScientific.ofScientific 1 true 9 : ℝ) = 1 / 10 ^ 9
  norm_num

@[simp] theorem real_max (x y : ℝ) : Scalar.max x y = Max.max x y := by
  rw [Scalar.max, if_pos (beq_self_eq_true x)]
  split
  next less => exact (max_eq_right less.le).symm
  next notLess => exact (max_eq_left (not_lt.1 notLess)).symm

@[simp] theorem real_min (x y : ℝ) : Scalar.min x y = Min.min x y := by
  rw [Scalar.min, if_pos (beq_self_eq_true x)]
  split
  next less => exact (min_eq_right less.le).symm
  next notLess => exact (min_eq_left (not_lt.1 notLess)).symm

@[simp] theorem real_ofNat (n : ℕ) : (Scalar.ofNat n : ℝ) = n := rfl

@[simp] theorem real_floor (x : ℝ) : Scalar.floor x = (⌊x⌋ : ℝ) := rfl

@[simp] theorem real_ceil (x : ℝ) : Scalar.ceil x = (⌈x⌉ : ℝ) := by
  simp only [ceil, real_floor, Int.floor_neg, Int.cast_neg, neg_neg]

@[simp] theorem real_ofInt (z : ℤ) : (Scalar.ofInt z : ℝ) = z := by
  unfold ofInt
  split
  next negative => simp [abs_of_neg (Int.cast_lt_zero.2 negative : (z : ℝ) < 0)]
  next notNegative =>
    simp [abs_of_nonneg (Int.cast_nonneg (not_lt.1 notNegative) : (0 : ℝ) ≤ z)]

@[simp] theorem real_positive (x : ℝ) : Scalar.positive x = Max.max x 0 := by
  unfold positive
  rw [real_zero]
  split
  next above => exact (max_eq_left above.le).symm
  next notAbove => exact (max_eq_right (not_lt.1 notAbove)).symm

@[simp] theorem real_abs (x : ℝ) : Scalar.abs x = |x| := by
  unfold Scalar.abs
  rw [real_zero]
  split
  next below => exact (abs_of_neg below).symm
  next notBelow => exact (abs_of_nonneg (not_lt.1 notBelow)).symm

theorem toWord_natCast (n : ℕ) : Scalar.toWord (n : ℝ) = Min.min n (2 ^ 64 - 1) := by
  change Nat.min ⌊(n : ℝ)⌋₊ (2 ^ 64 - 1) = _
  rw [Nat.floor_natCast]

theorem toWord_floor (x : ℝ) : Scalar.toWord (Scalar.floor x) = Min.min ⌊x⌋₊ (2 ^ 64 - 1) := by
  change Nat.min ⌊(⌊x⌋ : ℝ)⌋₊ (2 ^ 64 - 1) = _
  rw [← Int.floor_toNat, Int.floor_intCast, Int.floor_toNat]

theorem toWord_ceil (x : ℝ) : Scalar.toWord (Scalar.ceil x) = Min.min ⌈x⌉₊ (2 ^ 64 - 1) := by
  rw [real_ceil]
  change Nat.min ⌊(⌈x⌉ : ℝ)⌋₊ (2 ^ 64 - 1) = _
  rw [← Int.floor_toNat, Int.floor_intCast, Int.ceil_toNat]

theorem toInt_natCast (n : ℕ) : Scalar.toInt (n : ℝ) = Min.min n (2 ^ 63 - 1) := by
  unfold toInt
  rw [real_zero, if_neg (not_lt.2 n.cast_nonneg), toWord_natCast]
  simp only [Nat.min_def, Nat.pow_eq]
  split_ifs <;> omega

theorem toInt_intCast (z : ℤ) : Scalar.toInt (z : ℝ) = Max.max (-2 ^ 63) (Min.min z (2 ^ 63 - 1)) := by
  cases z with
  | ofNat n =>
    rw [Int.ofNat_eq_natCast, Int.cast_natCast, toInt_natCast]
    omega
  | negSucc n =>
    have negative : ((Int.negSucc n : ℤ) : ℝ) < 0 := Int.cast_lt_zero.2 (Int.negSucc_lt_zero n)
    have size : -((Int.negSucc n : ℤ) : ℝ) = (n + 1 : ℕ) := by push_cast [Int.negSucc_eq]; ring
    unfold toInt
    rw [real_zero, if_pos negative, size, toWord_natCast]
    simp only [Nat.min_def, Nat.pow_eq]
    split_ifs <;> omega

theorem toInt_ceil {x : ℝ} (low : -2 ^ 63 ≤ x) (high : x ≤ 2 ^ 63 - 1) :
    Scalar.toInt (Scalar.ceil x) = ⌈x⌉ := by
  have least : -2 ^ 63 ≤ ⌈x⌉ := by exact_mod_cast low.trans (Int.le_ceil x)
  have most : ⌈x⌉ ≤ 2 ^ 63 - 1 := Int.ceil_le.2 (by exact_mod_cast high)
  rw [real_ceil, toInt_intCast]
  omega

theorem toInt_floor {x : ℝ} (low : -2 ^ 63 ≤ x) (high : x < 2 ^ 63) :
    Scalar.toInt (Scalar.floor x) = ⌊x⌋ := by
  have least : -2 ^ 63 ≤ ⌊x⌋ := Int.le_floor.2 (by exact_mod_cast low)
  have most : ⌊x⌋ < 2 ^ 63 := by exact_mod_cast (Int.floor_le x).trans_lt high
  rw [real_floor, toInt_intCast]
  omega

theorem le_clamp {x low high : ℝ} (ordered : low ≤ high) : low ≤ clamp x low high :=
  (Ordered.clamp_within (beq_self_eq_true _) ordered).1

theorem clamp_le {x low high : ℝ} (ordered : low ≤ high) : clamp x low high ≤ high :=
  (Ordered.clamp_within (beq_self_eq_true _) ordered).2

theorem clamp_of_between {x low high : ℝ} (above : low ≤ x) (below : x ≤ high) :
    clamp x low high = x :=
  Ordered.clamp_of_within above below

theorem real_clamp {x low high : ℝ} (ordered : low ≤ high) :
    clamp x low high = Max.max low (Min.min x high) := by
  unfold clamp
  split
  next below => rw [min_eq_left (below.le.trans ordered), max_eq_left below.le]
  next notBelow =>
    split
    next above => rw [min_eq_right above.le, max_eq_right ordered]
    next notAbove => rw [min_eq_left (not_lt.1 notAbove), max_eq_right (not_lt.1 notBelow)]

end Scalar

end Waterfall
