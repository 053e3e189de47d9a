import Waterfall.Proofs.Double.Arithmetic

set_option autoImplicit false

namespace Waterfall

namespace Double

open Float.Model (UnpackedFloat)
open Float.Model.UnpackedFloat (Sign)

section

variable {v : ℚ} {x y : Float}

theorem Rounded.exact (rounded : Rounded v (place? y)) (fx : x.isFinite = true) (same : v = value x) :
    y.isFinite = true ∧ value y = v := by
  have above : x ≤ y := rounded.le fx same.ge
  have below : y ≤ x := rounded.ge fx same.le
  have fy : y.isFinite = true := isFinite_of_between fx fx above below
  refine ⟨fy, le_antisymm ?_ ?_⟩
  · rw [same]
    exact (le_iff_value fy fx).1 below
  · rw [same]
    exact (le_iff_value fx fy).1 above

theorem canonical_wide : Canonical (2 ^ 52) 148 :=
  ⟨by decide, by decide, by decide, .inl le_rfl⟩

theorem Rounded.near (rounded : Rounded v (place? y)) (nonneg : 0 ≤ v) (wide : v ≤ 2 ^ 200) :
    y.isFinite = true ∧ 0 ≤ value y ∧ |value y - v| ≤ v / 2 ^ 53 + slack := by
  have size : magnitude (2 ^ 52) 148 = 2 ^ 200 := by
    have shifted := magnitude_natCast (2 ^ 52) 148
    rw [← pow_add] at shifted
    exact_mod_cast shifted
  have within := rounded.within canonical_wide (by rw [abs_of_nonneg nonneg, size]; exact wide)
  rw [abs_of_nonneg nonneg] at within
  obtain ⟨finite, -, error⟩ := within
  have above := rounded.le (x := 0) (by decide) nonneg
  exact ⟨finite, (le_iff_value (by decide) finite).1 above, error⟩

theorem slack_le : slack ≤ 1 / 2 ^ 200 := by
  calc slack ≤ 2 ^ (-200 : ℤ) := zpow_le_zpow_right₀ one_le_two (by norm_num)
    _ = 1 / 2 ^ 200 := by rw [zpow_neg, one_div, zpow_ofNat]

theorem lt_held {p q : ℚ} (h : p < q) : ((p : WithTop ℚ) : Line) < held .positive q := by
  unfold held
  split
  next => exact WithBot.coe_lt_coe.2 (WithTop.coe_lt_coe.2 h)
  next => exact WithBot.coe_lt_coe.2 (WithTop.coe_lt_top p)

theorem Rounded.lt (rounded : Rounded v (place? y)) (fx : x.isFinite = true) (pos : 0 < v)
    (h : value x < v - (v / 2 ^ 53 + slack)) : x < y := by
  obtain ⟨s, n, t, sign, nearest, place⟩ := rounded
  refine lt_iff.2 ⟨_, _, place?_of_isFinite fx, place, ?_⟩
  cases s with
  | negative =>
    change v = -|v| at sign
    exact absurd (sign ▸ pos) (not_lt.2 (neg_nonpos.2 (abs_nonneg v)))
  | positive =>
    rw [abs_of_pos pos] at nearest
    refine lt_held ?_
    linarith [(abs_le.1 (nearest.error_le pos.le)).1]

end

theorem max_exact {x y : Float} (fx : x.isFinite = true) (fy : y.isFinite = true) :
    (Scalar.max x y).isFinite = true ∧ value (Scalar.max x y) = max (value x) (value y) := by
  rw [Scalar.max, if_pos (beq_self (isNaN_of_isFinite fx))]
  split
  next less => exact ⟨fy, (max_eq_right ((lt_iff_value fx fy).1 less).le).symm⟩
  next notLess => exact ⟨fx, (max_eq_left (not_lt.1 (mt (lt_iff_value fx fy).2 notLess))).symm⟩

theorem positive_exact {x : Float} (finite : x.isFinite = true) :
    (Scalar.positive x).isFinite = true ∧ value (Scalar.positive x) = max (value x) 0 := by
  have zero : (0 : Float).isFinite = true := by decide
  rw [Scalar.positive, scalar_zero]
  split
  next above => exact ⟨finite, (max_eq_left ((lt_iff_value zero finite).1 above).le).symm⟩
  next notAbove => exact ⟨zero, (max_eq_right (not_lt.1 (mt (lt_iff_value zero finite).2 notAbove))).symm⟩

-- Both are whole numbers of the least unit that the double can have beside such a bound.
theorem apart_of_lt {x : Float} {bound : ℕ} (finite : x.isFinite = true) (nonneg : 0 ≤ value x)
    (less : value x < bound) : 1 / 2 ^ 53 ≤ bound - value x := by
  obtain ⟨m, e, form, size⟩ := exists_canonical finite
  rw [abs_of_nonneg nonneg] at size
  obtain fine | coarse := lt_or_ge e (-53)
  · have half : value x < 1 / 2 := by
      calc value x = magnitude m e := size
        _ < 2 ^ (e + 53) := form.magnitude_lt_zpow
        _ ≤ 2 ^ (-1 : ℤ) := zpow_le_zpow_right₀ one_le_two (by omega)
        _ = 1 / 2 := by norm_num
    have one : (1 : ℚ) ≤ bound := by
      exact_mod_cast Nat.one_le_iff_ne_zero.2 fun none => by
        rw [none, Nat.cast_zero] at less
        exact absurd nonneg (not_le.2 less)
    linarith
  · obtain ⟨k, shift⟩ := Int.eq_ofNat_of_zero_le (a := e + 53) (by omega)
    have units : value x * 2 ^ 53 = (m * 2 ^ k : ℕ) := by
      have exponent : e = k - 53 := by omega
      rw [size, magnitude, exponent, zpow_sub₀ two_ne_zero, zpow_natCast]
      push_cast
      norm_num
      ring
    have less' : m * 2 ^ k + 1 ≤ bound * 2 ^ 53 := by
      refine Nat.succ_le_of_lt ?_
      have := mul_lt_mul_of_pos_right less (by positivity : (0 : ℚ) < 2 ^ 53)
      rw [units] at this
      exact_mod_cast this
    have : ((m * 2 ^ k : ℕ) : ℚ) + 1 ≤ bound * 2 ^ 53 := by exact_mod_cast less'
    rw [← units] at this
    linarith

theorem rounded_nearest {n : ℕ} (word : n < 2 ^ 64) : Rounded n (place? (nearest n)) := by
  have size : (UInt64.ofNat n).toNat = n := by
    rw [UInt64.toNat_ofNat']
    omega
  have rounded := rounded_normalize (n : ℤ) 0 .positive
  rw [zpow_zero, mul_one, Int.cast_natCast, ← size] at rounded
  rw [nearest, if_pos (by exact word)]
  rw [size] at rounded
  change Rounded _ (placeOf? (Float.Model.pack
    (UnpackedFloat.normalize .binary64 ((UInt64.ofNat n).toNat : ℤ) 0 .positive)).unpack)
  rw [size]
  exact rounded

theorem nearest_of_lt {n : ℕ} (narrow : n < 2 ^ 53) : (nearest n).isFinite = true ∧ value (nearest n) = n := by
  have word : n < 2 ^ 64 := by omega
  have size : (UInt64.ofNat n).toNat = n := by
    rw [UInt64.toNat_ofNat']
    omega
  have held := toFloat_of_short (n := UInt64.ofNat n) (by rw [size]; exact short_of_lt narrow)
  rw [size] at held
  rw [nearest, if_pos (by exact word)]
  exact held

section

variable {x : Float}

theorem unpack_abs (x : Float) : x.abs.toModel.unpack = x.toModel.unpack.abs := by
  change (Float.Model.pack x.toModel.unpack.abs).unpack = _
  cases u : x.toModel.unpack with
  | notANumber => rfl
  | infinity s | zero s => cases s <;> rfl
  | finite s m e pos => exact unpack_pack (canonical_of_unpack u) pos

theorem isFinite_abs (x : Float) : x.abs.isFinite = x.isFinite := by
  change x.abs.toModel.unpack.isFinite = x.toModel.unpack.isFinite
  rw [unpack_abs]
  cases x.toModel.unpack <;> rfl

theorem value_abs (x : Float) : value x.abs = |value x| := by
  unfold value
  rw [unpack_abs]
  cases x.toModel.unpack with
  | notANumber | infinity | zero => exact abs_zero.symm
  | finite s m e pos => exact (abs_signed (magnitude_nonneg m e)).symm

theorem value_wholeFrom : value wholeFrom = 2 ^ 52 := by
  have word : wholeFrom = (4503599627370496 : UInt64).toFloat := by decide
  have size : (4503599627370496 : UInt64).toNat = 2 ^ 52 := rfl
  rw [word, (toFloat_of_short (short_of_lt (by decide))).2, size]
  norm_num

-- A bit below the point leaves less than 53 bits above it.
theorem exists_natCast_of_large (finite : x.isFinite = true) (large : 2 ^ 52 ≤ value x) :
    ∃ k : ℕ, value x = k := by
  obtain ⟨m, e, form, size⟩ := exists_canonical finite
  rw [abs_of_nonneg ((by positivity : (0 : ℚ) ≤ 2 ^ 52).trans large)] at size
  rw [size] at large ⊢
  have above : 0 ≤ e := by
    by_contra below
    have short : magnitude m e < 2 ^ 52 := by
      calc magnitude m e < 2 ^ (e + 53) := form.magnitude_lt_zpow
        _ ≤ 2 ^ (52 : ℤ) := zpow_le_zpow_right₀ one_le_two (by omega)
        _ = 2 ^ 52 := zpow_natCast 2 52
    exact absurd large (not_le.2 short)
  obtain ⟨k, rfl⟩ := Int.eq_ofNat_of_zero_le above
  exact ⟨m * 2 ^ k, magnitude_natCast m k⟩

theorem unpack_neg_neg (x : Float) : (- -x).toModel.unpack = x.toModel.unpack := by
  rw [unpack_neg, unpack_neg, unpacked_neg_neg]

theorem abs_lt_wholeFrom_iff (finite : x.isFinite = true) : x.abs < wholeFrom ↔ |value x| < 2 ^ 52 := by
  rw [lt_iff_value ((isFinite_abs x).trans finite) (by decide), value_abs, value_wholeFrom]

theorem value_toFloat_toUInt64 (finite : x.isFinite = true) (small : value x < 2 ^ 52) :
    x.toUInt64.toFloat.isFinite = true ∧ value x.toUInt64.toFloat = ⌊value x⌋₊ := by
  have below : ⌊value x⌋₊ ≤ 2 ^ 52 := Nat.floor_le_of_le (by exact_mod_cast small.le)
  have read : x.toUInt64.toNat = ⌊value x⌋₊ := by
    rw [toNat_toUInt64 finite]
    omega
  have held := toFloat_of_short (n := x.toUInt64) (short_of_lt (by omega))
  rwa [read] at held

theorem zero_literal : (0.0 : Float) = 0 := by decide

theorem floor_exact (finite : x.isFinite = true) (nonneg : 0 ≤ value x) :
    (floor x).isFinite = true ∧ value (floor x) = ⌊value x⌋₊ := by
  have notBelow : ¬ x < 0 := mt (lt_iff_value finite (by decide)).1 (not_lt.2 nonneg)
  unfold floor
  split
  next small =>
    rw [abs_lt_wholeFrom_iff finite, abs_of_nonneg nonneg] at small
    obtain ⟨finite', whole⟩ := value_toFloat_toUInt64 finite small
    have reached : ¬ x < x.toUInt64.toFloat := by
      rw [lt_iff_value finite finite', whole]
      exact not_lt.2 (Nat.floor_le nonneg)
    rw [zero_literal, if_neg notBelow]
    dsimp only
    rw [if_neg reached]
    split
    next none =>
      have nothing : value x.toUInt64.toFloat = 0 := (beq_iff_value finite' (by decide)).1 none
      rw [← whole, nothing]
      have zero : (0 : Float).isFinite = true := by decide
      have product : Rounded 0 (place? (x * 0)) := mul_zero (value x) ▸ rounded_mul finite zero
      exact product.exact zero rfl
    next => exact ⟨finite', whole⟩
  next large =>
    rw [abs_lt_wholeFrom_iff finite, abs_of_nonneg nonneg, not_lt] at large
    obtain ⟨k, same⟩ := exists_natCast_of_large finite large
    rw [same, Nat.floor_natCast]
    exact ⟨finite, rfl⟩

theorem sub_one_exact {n : ℕ} (finite : x.isFinite = true) (whole : value x = -n) (short : n + 1 < 2 ^ 53) :
    (x - 1.0).isFinite = true ∧ value (x - 1.0) = -(n + 1 : ℕ) := by
  obtain ⟨finite_next, next⟩ := nearest_of_lt short
  have one : (1.0 : Float).isFinite = true ∧ value 1.0 = 1 := ⟨by decide, value_one⟩
  have down : value x - value 1.0 = value (-nearest (n + 1)) := by
    rw [value_neg, next, whole, one.2]
    push_cast
    ring
  obtain ⟨finite', stepped⟩ := (rounded_sub finite one.1).exact ((isFinite_neg _).trans finite_next) down
  refine ⟨finite', ?_⟩
  rw [stepped, down, value_neg, next]

theorem ceil_exact (finite : x.isFinite = true) (pos : 0 < value x) :
    (Scalar.ceil x).isFinite = true ∧ value (Scalar.ceil x) = ⌈value x⌉₊ := by
  change (-floor (-x)).isFinite = true ∧ value (-floor (-x)) = _
  rw [isFinite_neg, value_neg]
  have finite_neg : (-x).isFinite = true := (isFinite_neg x).trans finite
  have below : -x < 0 := by
    rw [lt_iff_value finite_neg (by decide), value_neg]
    exact neg_lt_zero.2 pos
  have size : |value (-x)| = value x := by
    rw [value_neg, abs_neg, abs_of_pos pos]
  unfold floor
  split
  next small =>
    rw [abs_lt_wholeFrom_iff finite_neg, size] at small
    obtain ⟨finite', whole⟩ := value_toFloat_toUInt64 finite small
    have twice : (- -x).toUInt64 = x.toUInt64 := congrArg UnpackedFloat.toUInt64 (unpack_neg_neg x)
    rw [zero_literal, if_pos below, twice]
    dsimp only
    have reached := Nat.floor_le pos.le
    have finite_part := (isFinite_neg x.toUInt64.toFloat).trans finite'
    have part := (value_neg x.toUInt64.toFloat).trans (congrArg Neg.neg whole)
    generalize -x.toUInt64.toFloat = t at finite_part part
    split
    next beyond =>
      rw [lt_iff_value finite_neg finite_part, value_neg, part, neg_lt_neg_iff] at beyond
      have short : ⌊value x⌋₊ + 1 < 2 ^ 53 := by
        have : ⌊value x⌋₊ < 2 ^ 52 := (Nat.floor_lt pos.le).2 (by exact_mod_cast small)
        omega
      obtain ⟨finite_next, next⟩ := sub_one_exact finite_part part short
      have apart : ¬ (t - 1.0 == 0) = true := by
        rw [beq_iff_value finite_next (by decide), next]
        exact neg_ne_zero.2 (Nat.cast_ne_zero.2 (Nat.succ_ne_zero _))
      have above : ⌈value x⌉₊ = ⌊value x⌋₊ + 1 := by
        refine (Nat.ceil_eq_iff (Nat.succ_ne_zero _)).2 ⟨by simpa using beyond, ?_⟩
        exact_mod_cast (Nat.lt_floor_add_one (value x)).le
      rw [if_neg apart, next, above, neg_neg]
      exact ⟨finite_next, rfl⟩
    next stop =>
      rw [lt_iff_value finite_neg finite_part, value_neg, part, neg_lt_neg_iff, not_lt] at stop
      have same : value x = ⌊value x⌋₊ := le_antisymm stop reached
      have apart : ¬ (t == 0) = true := by
        rw [beq_iff_value finite_part (by decide), part, ← same]
        exact (neg_lt_zero.2 pos).ne
      rw [if_neg apart, part, neg_neg]
      refine ⟨finite_part, ?_⟩
      rw [same, Nat.ceil_natCast, Nat.floor_natCast]
  next large =>
    rw [abs_lt_wholeFrom_iff finite_neg, size, not_lt] at large
    obtain ⟨k, same⟩ := exists_natCast_of_large finite large
    rw [value_neg, same, neg_neg, Nat.ceil_natCast]
    exact ⟨finite_neg, rfl⟩

theorem toWord_of_value {k : ℕ} (finite : x.isFinite = true) (same : value x = k) :
    Scalar.toWord x = min k (2 ^ 64 - 1) := by
  change x.toUInt64.toNat = _
  rw [toNat_toUInt64 finite, same, Nat.floor_natCast]

theorem toWord_ceil_infinite (infinite : x.toModel.unpack = .infinity .positive) :
    Scalar.toWord (Scalar.ceil x) = 2 ^ 64 - 1 := by
  have notSmall : ¬ (-x).abs < wholeFrom := by
    intro less
    obtain ⟨p, q, top, -, less⟩ := lt_iff.1 less
    rw [place?, unpack_abs, unpack_neg, infinite] at top
    cases top
    exact not_top_lt less
  change (-floor (-x)).toUInt64.toNat = _
  rw [floor, if_neg notSmall]
  change (- -x).toModel.unpack.toUInt64.toNat = _
  rw [unpack_neg_neg, infinite]
  rfl

theorem floor_lt_ceil {y : Float} (finite : x.isFinite = true) (nonneg : 0 ≤ value x)
    (word : ⌊value x⌋₊ < 2 ^ 64 - 1) (less : x < y) :
    Scalar.toWord (Scalar.floor x) < Scalar.toWord (Scalar.ceil y) := by
  obtain ⟨finite_floor, floored⟩ := floor_exact finite nonneg
  rw [toWord_of_value (x := Scalar.floor x) finite_floor floored, min_eq_left word.le]
  by_cases finite' : y.isFinite = true
  · rw [lt_iff_value finite finite'] at less
    obtain ⟨finite_ceil, ceiled⟩ := ceil_exact finite' (nonneg.trans_lt less)
    rw [toWord_of_value finite_ceil ceiled]
    exact lt_min (Nat.lt_ceil.2 ((Nat.floor_le nonneg).trans_lt less)) word
  · have infinite : y.toModel.unpack = .infinity .positive := by
      obtain ⟨p, q, place, place', less⟩ := lt_iff.1 less
      change ¬ y.toModel.unpack.isFinite = true at finite'
      unfold place? at place'
      cases u : y.toModel.unpack with
      | notANumber => rw [u] at place'; cases place'
      | zero | finite => rw [u] at finite'; exact absurd rfl finite'
      | infinity s =>
        cases s with
        | positive => rfl
        | negative =>
          rw [u] at place'
          cases place'
          exact absurd less not_lt_bot
    rw [toWord_ceil_infinite infinite]
    exact word

end

end Double

end Waterfall
