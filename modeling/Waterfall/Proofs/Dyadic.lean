import Mathlib
import Waterfall.Binary

set_option autoImplicit false

namespace Waterfall

namespace Binary

variable {n d : ℕ}

theorem divideToEven_near (n : ℕ) (pos : 0 < d) : |(divideToEven n d : ℚ) - n / d| ≤ 1 / 2 := by
  have size : (0 : ℚ) < d := by exact_mod_cast pos
  have parts : (n : ℚ) / d = (n / d : ℕ) + (n % d : ℕ) / d := by
    rw [div_eq_iff size.ne', add_mul, div_mul_cancel₀ _ size.ne']
    exact_mod_cast (Nat.div_add_mod' n d).symm
  have nonneg : (0 : ℚ) ≤ (n % d : ℕ) / d := by positivity
  have low (less : 2 * (n % d) ≤ d) : ((n % d : ℕ) : ℚ) / d ≤ 1 / 2 := by
    rw [div_le_iff₀ size]
    have : (2 * (n % d : ℕ) : ℚ) ≤ d := by exact_mod_cast less
    linarith
  have high (more : d ≤ 2 * (n % d)) : 1 / 2 ≤ ((n % d : ℕ) : ℚ) / d := by
    rw [le_div_iff₀ size]
    have : (d : ℚ) ≤ 2 * (n % d : ℕ) := by exact_mod_cast more
    linarith
  have below : ((n % d : ℕ) : ℚ) / d ≤ 1 := by
    rw [div_le_one size]
    exact_mod_cast (Nat.mod_lt n pos).le
  rw [parts, abs_le]
  simp only [divideToEven]
  split
  next less => constructor <;> linarith [low less.le]
  next notLess =>
    split
    next more => push_cast; constructor <;> linarith [high more.le]
    next notMore =>
      have half := le_antisymm (low (not_lt.1 notMore)) (high (not_lt.1 notLess))
      obtain even | odd := Nat.mod_two_eq_zero_or_one (n / d)
      · rw [even]; push_cast; constructor <;> linarith
      · rw [odd]; push_cast; constructor <;> linarith

theorem zpow_log2Quotient (pos_n : 0 < n) (pos : 0 < d) : (2 : ℚ) ^ log2Quotient n d ≤ n / d := by
  have size : (0 : ℚ) < d := by exact_mod_cast pos
  rw [le_div_iff₀ size]
  unfold log2Quotient
  split
  next le =>
    have quotient : n / d ≠ 0 := (Nat.div_pos le pos).ne'
    have least : 2 ^ (n / d).log2 * d ≤ n :=
      (Nat.mul_le_mul_right d (Nat.log2_self_le quotient)).trans (Nat.div_mul_le_self n d)
    exact_mod_cast least
  next less =>
    have most : d ≤ n * 2 ^ (((d - 1) / n).log2 + 1) := by
      have := (Nat.div_lt_iff_lt_mul pos_n).1 (Nat.lt_log2_self (n := (d - 1) / n))
      rw [mul_comm n]
      omega
    have scale : (0 : ℚ) < 2 ^ (((d - 1) / n).log2 + 1) := by positivity
    rw [show -(((d - 1) / n).log2 : ℤ) - 1 = -(((d - 1) / n).log2 + 1 : ℕ) by push_cast; ring, zpow_neg,
      zpow_natCast, inv_mul_le_iff₀ scale, mul_comm _ (n : ℚ)]
    exact_mod_cast most

theorem log2Quotient_lt {k : ℤ} (pos_n : 0 < n) (pos : 0 < d) (less : (n : ℚ) / d < 2 ^ k) :
    log2Quotient n d < k :=
  (zpow_lt_zpow_iff_right₀ one_lt_two).1 ((zpow_log2Quotient pos_n pos).trans_lt less)

theorem divideToEven_of_dvd (pos : 0 < d) (whole : d ∣ n) : divideToEven n d = n / d := by
  simp [divideToEven, Nat.mod_eq_zero_of_dvd whole, pos]

end Binary

namespace Dyadic

def value (x : Dyadic) : ℚ := x.m * 2 ^ x.q

theorem two_zpow_eq (q : ℤ) : (2 : ℚ) ^ q = 2 ^ q.toNat / 2 ^ (-q).toNat := by
  obtain ⟨k, rfl | rfl⟩ := q.eq_nat_or_neg <;> simp

theorem den_pos (x : Dyadic) : 0 < x.den :=
  Nat.two_pow_pos _

theorem value_eq (x : Dyadic) : x.value = x.num / x.den := by
  simp only [value, num, den, two_zpow_eq, Nat.pow_eq]
  push_cast
  ring

theorem floor_eq (x : Dyadic) : x.floor = ⌊x.value⌋₊ := by
  rw [value_eq, Nat.floor_div_eq_div, floor]

theorem round_eq (x : Dyadic) : x.round = ⌊x.value + 1 / 2⌋₊ := by
  have size : (x.den : ℚ) ≠ 0 := by exact_mod_cast x.den_pos.ne'
  have half : x.value + 1 / 2 = (2 * x.num + x.den : ℕ) / (2 * x.den : ℕ) := by
    rw [value_eq]
    push_cast
    field_simp
  rw [half, Nat.floor_div_eq_div, round]

theorem nearest_near (n : ℕ) {d : ℕ} (pos : 0 < d) :
    |(nearest n d).value - n / d| ≤ n / d / 2 ^ 53 := by
  by_cases zero : n = 0
  · subst zero
    simp [nearest, value]
  · have least := Binary.zpow_log2Quotient (Nat.pos_of_ne_zero zero) pos
    simp only [nearest, if_neg zero, value, Nat.pow_eq]
    generalize Binary.log2Quotient n d = e at least ⊢
    have scale : (0 : ℚ) < 2 ^ (e - 52) := by positivity
    have units : ((n * 2 ^ (-(e - 52)).toNat : ℕ) : ℚ) / (d * 2 ^ (e - 52).toNat : ℕ) =
        n / d / 2 ^ (e - 52) := by
      rw [two_zpow_eq]
      push_cast
      field_simp
    have error := Binary.divideToEven_near (n * 2 ^ (-(e - 52)).toNat)
      (Nat.mul_pos pos (Nat.two_pow_pos (e - 52).toNat))
    rw [units] at error
    generalize Binary.divideToEven _ _ = m at error ⊢
    have half : (2 : ℚ) ^ (e - 52) / 2 = 2 ^ e / 2 ^ 53 := by
      rw [zpow_sub₀ two_ne_zero]
      norm_num
      ring
    calc |(m : ℚ) * 2 ^ (e - 52) - n / d|
        = |(m : ℚ) - n / d / 2 ^ (e - 52)| * 2 ^ (e - 52) := by
          rw [← abs_of_pos scale, ← abs_mul, abs_of_pos scale, sub_mul, div_mul_cancel₀ _ scale.ne']
      _ ≤ 1 / 2 * 2 ^ (e - 52) := mul_le_mul_of_nonneg_right error scale.le
      _ = 2 ^ e / 2 ^ 53 := by rw [← half]; ring
      _ ≤ n / d / 2 ^ 53 := div_le_div_of_nonneg_right least (by positivity)

theorem scale_near (x : Dyadic) (n : ℕ) {d : ℕ} (pos : 0 < d) :
    |(x.scale n d).value - x.value * n / d| ≤ x.value * n / d / 2 ^ 53 := by
  have near := nearest_near (x.num * n) (Nat.mul_pos x.den_pos pos)
  have exact : ((x.num * n : ℕ) : ℚ) / (x.den * d : ℕ) = x.value * n / d := by
    rw [value_eq]
    push_cast
    field_simp
  rwa [exact] at near

-- In units of the last bit, the quotient is a whole number.
theorem nearest_of_dvd {n d : ℕ} (pos : 0 < d)
    (whole : d * 2 ^ (Binary.log2Quotient n d - 52).toNat ∣
      n * 2 ^ (-(Binary.log2Quotient n d - 52)).toNat) : (nearest n d).value = n / d := by
  by_cases zero : n = 0
  · simp [nearest, value, zero]
  · simp only [nearest, if_neg zero, value, Nat.pow_eq]
    generalize Binary.log2Quotient n d - 52 = last at whole ⊢
    have size : 0 < d * 2 ^ last.toNat := Nat.mul_pos pos (Nat.two_pow_pos _)
    rw [Binary.divideToEven_of_dvd size whole, Nat.cast_div_charZero whole, two_zpow_eq]
    push_cast
    field_simp

theorem nearest_of_lt {n : ℕ} (small : n < 2 ^ 53) : (nearest n 1).value = n := by
  obtain rfl | pos := Nat.eq_zero_or_pos n
  · simp [nearest, value]
  · have bits : Binary.log2Quotient n 1 < 53 := by
      refine Binary.log2Quotient_lt pos one_pos ?_
      rw [Nat.cast_one, div_one]
      exact_mod_cast small
    have units : (Binary.log2Quotient n 1 - 52).toNat = 0 := by omega
    rw [nearest_of_dvd one_pos (by rw [units]; simp), Nat.cast_one, div_one]

theorem num_of_value {x : Dyadic} {n : ℕ} (whole : x.value = n) : x.num = n * x.den := by
  have size : (x.den : ℚ) ≠ 0 := by exact_mod_cast x.den_pos.ne'
  rw [value_eq, div_eq_iff size] at whole
  exact_mod_cast whole

end Dyadic

end Waterfall
