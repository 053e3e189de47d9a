import Waterfall.Proofs.Double.Whole

set_option autoImplicit false

namespace Waterfall

namespace Double

open Float.Model (Format UnpackedFloat)
open Float.Model.UnpackedFloat (Sign Accuracy ExtendedMantissa)

def Stands : ExtendedMantissa → ℚ → Prop
  | ⟨m, false, false⟩, x => x = m
  | ⟨m, false, true⟩, x => m < x ∧ x < m + 1 / 2
  | ⟨m, true, false⟩, x => x = m + 1 / 2
  | ⟨m, true, true⟩, x => m + 1 / 2 < x ∧ x < m + 1

theorem Stands.shiftRightOne {em : ExtendedMantissa} {x : ℚ} (stands : Stands em x) :
    Stands em.shiftRightOne (x / 2) := by
  obtain ⟨m, round, sticky⟩ := em
  have halves : (m : ℚ) = 2 * (m / 2 : ℕ) + (m % 2 : ℕ) := by exact_mod_cast (Nat.div_add_mod m 2).symm
  obtain even | odd := Nat.mod_two_eq_zero_or_one m
  · rw [even] at halves
    cases round <;> cases sticky <;> simp only [Stands, ExtendedMantissa.shiftRightOne, even] at stands ⊢ <;>
      simp only [bne_self_eq_false, Bool.or_false, Bool.or_true, Bool.or_self] <;> grind
  · rw [odd] at halves
    cases round <;> cases sticky <;> simp only [Stands, ExtendedMantissa.shiftRightOne, odd] at stands ⊢ <;>
      grind

theorem Stands.shiftRight {em : ExtendedMantissa} {x : ℚ} (stands : Stands em x) (n : ℕ) :
    Stands (em >>> n) (x / 2 ^ n) := by
  induction n with
  | zero =>
    rw [pow_zero, div_one]
    exact stands
  | succ n ih =>
    rw [pow_succ, ← div_div]
    exact ih.shiftRightOne

theorem Stands.roundedMantissa {em : ExtendedMantissa} {x : ℚ} (stands : Stands em x) :
    |x - em.roundedMantissa| ≤ 1 / 2 := by
  obtain ⟨m, round, sticky⟩ := em
  rw [abs_le]
  cases round <;> cases sticky <;>
    simp only [Stands, ExtendedMantissa.roundedMantissa, ExtendedMantissa.accuracy,
      Accuracy.roundToNearestEven] at stands ⊢
  · grind
  · grind
  · obtain even | odd := Nat.mod_two_eq_zero_or_one m
    · rw [even]; grind
    · rw [odd]; grind
  · grind

theorem Stands.mantissa_le {em : ExtendedMantissa} {x : ℚ} (stands : Stands em x) : (em.mantissa : ℚ) ≤ x := by
  obtain ⟨m, round, sticky⟩ := em
  cases round <;> cases sticky <;> simp only [Stands] at stands ⊢ <;> grind

theorem Stands.lt_mantissa {em : ExtendedMantissa} {x : ℚ} (stands : Stands em x) : x < em.mantissa + 1 := by
  obtain ⟨m, round, sticky⟩ := em
  cases round <;> cases sticky <;> simp only [Stands] at stands ⊢ <;> grind

/-- `n · 2^t` is nearest to `v` among the numbers with an exponent that fits the size of `v`. -/
structure Nearest (v : ℚ) (n : ℕ) (t : ℤ) : Prop where
  near : |v / 2 ^ t - n| ≤ 1 / 2
  lowest : -1074 ≤ t
  below : v < 2 ^ (t + 53)
  full : 2 ^ (t + 52) ≤ v ∨ t = -1074

section

variable {v : ℚ} {n m : ℕ} {t e : ℤ}

theorem two_zpow_pos (t : ℤ) : (0 : ℚ) < 2 ^ t := zpow_pos two_pos t

theorem Canonical.magnitude_lt_zpow (form : Canonical m e) : magnitude m e < 2 ^ (e + 53) := by
  have bits : (m : ℚ) < 2 ^ (53 : ℕ) := by exact_mod_cast form.mantissa
  calc magnitude m e < 2 ^ (53 : ℕ) * 2 ^ e := mul_lt_mul_of_pos_right bits (two_zpow_pos e)
    _ = 2 ^ (e + 53) := by rw [zpow_add₀ two_ne_zero, mul_comm]; rfl

theorem Canonical.zpow_le_magnitude (full : 2 ^ 52 ≤ m) : (2 : ℚ) ^ (e + 52) ≤ magnitude m e := by
  have bits : (2 : ℚ) ^ (52 : ℕ) ≤ m := by exact_mod_cast full
  calc (2 : ℚ) ^ (e + 52) = 2 ^ (52 : ℕ) * 2 ^ e := by rw [zpow_add₀ two_ne_zero, mul_comm]; rfl
    _ ≤ magnitude m e := mul_le_mul_of_nonneg_right bits (two_zpow_pos e).le

theorem Nearest.le_half (nearest : Nearest v n t) : v / 2 ^ t ≤ n + 1 / 2 := by
  linarith [(abs_le.1 nearest.near).2]

theorem Nearest.half_le (nearest : Nearest v n t) : n - 1 / 2 ≤ v / 2 ^ t := by
  linarith [(abs_le.1 nearest.near).1]

theorem le_of_cast_sub_half_le {a b : ℕ} (h : (a : ℚ) - 1 / 2 ≤ b) : a ≤ b := by
  by_contra less
  have : (b : ℚ) + 1 ≤ a := by exact_mod_cast not_le.1 less
  linarith

theorem Nearest.full_mantissa (nearest : Nearest v n t) (high : 2 ^ (t + 52) ≤ v) : 2 ^ 52 ≤ n := by
  have reach : (2 : ℚ) ^ (52 : ℕ) ≤ v / 2 ^ t := by
    rw [le_div_iff₀ (two_zpow_pos t)]
    refine le_of_eq_of_le ?_ high
    rw [zpow_add₀ two_ne_zero, mul_comm]
    rfl
  refine le_of_cast_sub_half_le ?_
  push_cast
  linarith [nearest.le_half]

-- A number with a greater exponent is greater than all that this one is near to.
theorem Nearest.magnitude_le (nearest : Nearest v n t) (form : Canonical m e) (below : magnitude m e ≤ v) :
    magnitude m e ≤ magnitude n t := by
  have lowest := nearest.lowest
  obtain less | rfl | greater := lt_trichotomy e t
  · have high : 2 ^ 52 ≤ n := nearest.full_mantissa (nearest.full.resolve_right (by have := form.lowest; omega))
    calc magnitude m e ≤ 2 ^ (e + 53) := form.magnitude_lt_zpow.le
      _ ≤ 2 ^ (t + 52) := zpow_le_zpow_right₀ one_le_two (by omega)
      _ ≤ magnitude n t := Canonical.zpow_le_magnitude high
  · refine mul_le_mul_of_nonneg_right (Nat.cast_le.2 (le_of_cast_sub_half_le ?_)) (two_zpow_pos e).le
    have : (m : ℚ) ≤ v / 2 ^ e := (le_div_iff₀ (two_zpow_pos e)).2 below
    linarith [nearest.le_half]
  · have high : 2 ^ 52 ≤ m := form.full.resolve_right (by omega)
    have above : (2 : ℚ) ^ (t + 53) ≤ v := by
      calc (2 : ℚ) ^ (t + 53) ≤ 2 ^ (e + 52) := zpow_le_zpow_right₀ one_le_two (by omega)
        _ ≤ magnitude m e := Canonical.zpow_le_magnitude high
        _ ≤ v := below
    exact absurd nearest.below (not_lt.2 above)

theorem Nearest.le_magnitude (nearest : Nearest v n t) (form : Canonical m e) (above : v ≤ magnitude m e) :
    magnitude n t ≤ magnitude m e := by
  by_cases less : e < t
  · have high : 2 ^ (t + 52) ≤ v := nearest.full.resolve_right (by have := form.lowest; omega)
    have below : v < 2 ^ (t + 52) := by
      calc v ≤ magnitude m e := above
        _ < 2 ^ (e + 53) := form.magnitude_lt_zpow
        _ ≤ 2 ^ (t + 52) := zpow_le_zpow_right₀ one_le_two (by omega)
    exact absurd below (not_lt.2 high)
  · obtain ⟨d, rfl⟩ := Int.le.dest (not_lt.1 less)
    have same : magnitude m (t + d) = (m * 2 ^ d : ℕ) * 2 ^ t := by
      rw [magnitude, zpow_add₀ two_ne_zero, zpow_natCast]
      push_cast
      ring
    rw [same] at above ⊢
    refine mul_le_mul_of_nonneg_right (Nat.cast_le.2 (le_of_cast_sub_half_le ?_)) (two_zpow_pos t).le
    have : v / 2 ^ t ≤ (m * 2 ^ d : ℕ) := (div_le_iff₀ (two_zpow_pos t)).2 above
    linarith [nearest.half_le]

def slack : ℚ := 2 ^ (-1075 : ℤ)

theorem Nearest.error_le (nearest : Nearest v n t) (nonneg : 0 ≤ v) :
    |magnitude n t - v| ≤ v / 2 ^ 53 + slack := by
  have unit := two_zpow_pos t
  have near : |magnitude n t - v| ≤ 2 ^ t / 2 := by
    have scaled : magnitude n t - v = -((v / 2 ^ t - n) * 2 ^ t) := by
      rw [magnitude]
      field_simp
      ring
    rw [scaled, abs_neg, abs_mul, abs_of_pos unit]
    calc |v / 2 ^ t - n| * 2 ^ t ≤ 1 / 2 * 2 ^ t := mul_le_mul_of_nonneg_right nearest.near unit.le
      _ = 2 ^ t / 2 := by ring
  refine near.trans ?_
  have part : 0 ≤ v / 2 ^ 53 := by positivity
  obtain high | rfl := nearest.full
  · have shifted : (2 : ℚ) ^ t / 2 = 2 ^ (t + 52) / 2 ^ 53 := by
      rw [zpow_add₀ two_ne_zero]
      norm_num
      ring
    have small : 0 ≤ slack := (two_zpow_pos _).le
    have : (2 : ℚ) ^ (t + 52) / 2 ^ 53 ≤ v / 2 ^ 53 := by gcongr
    linarith
  · have least : (2 : ℚ) ^ (-1074 : ℤ) / 2 = slack := by
      have step : (-1074 : ℤ) = -1075 + 1 := by norm_num
      rw [slack, step, zpow_add₀ two_ne_zero, zpow_one, mul_div_assoc, div_self two_ne_zero, mul_one]
    rw [least]
    linarith

end

def lineEnd : Sign → Line
  | .positive => ⊤
  | .negative => ⊥

def held (s : Sign) (q : ℚ) : Line :=
  if q < 2 ^ 1024 then (signed s q : WithTop ℚ) else lineEnd s

theorem Stands.ofMantissa (m : ℕ) : Stands (.ofMantissaAndAccuracy m .exact) m := rfl

theorem mantissa_ofMantissaAndAccuracy (m : ℕ) (a : Accuracy) :
    (ExtendedMantissa.ofMantissaAndAccuracy m a).mantissa = m := by
  cases a with
  | exact => rfl
  | inexact o => cases o <;> rfl

theorem unpack_pack_infinite {s : Sign} {m : ℕ} {e : ℤ} (large : 971 < e) (pos : 0 < m) :
    (Float.Model.pack (.finite s m e pos)).unpack = .infinity s := by
  change UnpackedFloat.unpack .binary64 (UnpackedFloat.pack .binary64 _) = _
  rw [UnpackedFloat.pack.eq_def]
  dsimp only
  rw [exponentBias_binary64, if_pos (by omega)]
  cases s <;> rfl

theorem placeOf?_pack_finite {s : Sign} {m : ℕ} {e : ℤ} (pos : 0 < m) (narrow : m < 2 ^ 53)
    (lowest : -1074 ≤ e) (full : 2 ^ 52 ≤ m ∨ e = -1074) :
    placeOf? (Float.Model.pack (.finite s m e pos)).unpack = some (held s (magnitude m e)) := by
  by_cases fits : e ≤ 971
  · have form : Canonical m e := ⟨narrow, lowest, fits, full⟩
    have small : magnitude m e < 2 ^ 1024 := by
      calc magnitude m e < 2 ^ (e + 53) := form.magnitude_lt_zpow
        _ ≤ 2 ^ (1024 : ℤ) := zpow_le_zpow_right₀ one_le_two (by omega)
        _ = 2 ^ 1024 := zpow_natCast 2 1024
    rw [unpack_pack form pos, held, if_pos small]
    rfl
  · have large : ¬ magnitude m e < 2 ^ 1024 := by
      rw [not_lt]
      calc (2 : ℚ) ^ 1024 = 2 ^ (1024 : ℤ) := (zpow_natCast 2 1024).symm
        _ ≤ 2 ^ (e + 52) := zpow_le_zpow_right₀ one_le_two (by omega)
        _ ≤ magnitude m e := Canonical.zpow_le_magnitude (full.resolve_right (by omega))
    rw [unpack_pack_infinite (not_le.1 fits) pos, held, if_neg large]
    cases s <;> rfl

-- A mantissa that rounding makes one bit too long is a power of two, so that nothing is lost by one more shift.
theorem placeOf?_pack_shifted {s : Sign} {n : ℕ} {t : ℤ} (short : n ≤ 2 ^ 53) (lowest : -1074 ≤ t)
    (full : 2 ^ 52 ≤ n ∨ t = -1074) :
    placeOf? (Float.Model.pack
      (match UnpackedFloat.shiftToTargetExponent .binary64 n t .exact with
      | (final, exponent) =>
        if h : final.mantissa = 0 then UnpackedFloat.zero s
        else .finite s final.mantissa exponent (Nat.pos_of_ne_zero h))).unpack =
      some (held s (magnitude n t)) := by
  unfold UnpackedFloat.shiftToTargetExponent
  rw [targetExponent_eq]
  obtain narrow | rfl := short.lt_or_eq
  · have bits : n = 0 ∨ n.log2 < 53 := by
      by_cases none : n = 0
      · exact .inl none
      · exact .inr ((Nat.log2_lt none).2 narrow)
    have still : max ((n.log2 : ℤ) + t - 52) (-1074) ≤ t := by
      obtain rfl | bits := bits
      · rw [Nat.log2_zero]
        omega
      · omega
    have amount : (max ((n.log2 : ℤ) + t - 52) (-1074) - t).toNat = 0 := by omega
    unfold UnpackedFloat.shiftToExponent
    dsimp only
    rw [amount, Nat.cast_zero, add_zero]
    change placeOf?
      (Float.Model.pack (if h : n = 0 then _ else .finite s n t (Nat.pos_of_ne_zero h))).unpack = _
    by_cases none : n = 0
    · rw [dif_pos none, none, magnitude, Nat.cast_zero, zero_mul, held, if_pos (by positivity)]
      cases s <;> rfl
    · rw [dif_neg none]
      exact placeOf?_pack_finite (Nat.pos_of_ne_zero none) narrow lowest full
  · have carried : max (((2 ^ 53 : ℕ).log2 : ℤ) + t - 52) (-1074) = t + (1 : ℕ) := by
      rw [Nat.log2_two_pow]
      omega
    have shifted := shiftToExponent_exactly (2 ^ 52) 1 t
    rw [carried]
    change UnpackedFloat.shiftToExponent (2 ^ 53) t .exact (t + (1 : ℕ)) = _ at shifted
    rw [shifted]
    have same : magnitude (2 ^ 53) t = magnitude (2 ^ 52) (t + (1 : ℕ)) := by
      rw [magnitude, magnitude, zpow_add₀ two_ne_zero, zpow_natCast]
      push_cast
      ring
    rw [same]
    exact placeOf?_pack_finite (by decide) (by decide) (by omega) (.inl le_rfl)

theorem placeOf?_roundWithAccuracy (s : Sign) {m : ℕ} {e : ℤ} {a : Accuracy} {x : ℚ}
    (stands : Stands (.ofMantissaAndAccuracy m a) x)
    (fine : e ≤ Format.binary64.targetExponent (Float.Model.totalExponent m e)) :
    ∃ n t, Nearest (x * 2 ^ e) n t ∧
      placeOf? (Float.Model.pack (UnpackedFloat.roundWithAccuracy .binary64 s m e a)).unpack =
        some (held s (magnitude n t)) := by
  rw [targetExponent_eq] at fine
  obtain ⟨k, target⟩ := Int.le.dest fine
  have amount : (max ((m.log2 : ℤ) + e - 52) (-1074) - e).toNat = k := by omega
  have shifted := (stands.shiftRight k).roundedMantissa
  have first : UnpackedFloat.shiftToTargetExponent .binary64 m e a =
      (ExtendedMantissa.ofMantissaAndAccuracy m a >>> k, e + k) := by
    unfold UnpackedFloat.shiftToTargetExponent UnpackedFloat.shiftToExponent
    rw [targetExponent_eq]
    dsimp only
    rw [amount]
  generalize (ExtendedMantissa.ofMantissaAndAccuracy m a >>> k) = em at shifted first
  have least := stands.mantissa_le
  have most := stands.lt_mantissa
  rw [mantissa_ofMantissaAndAccuracy] at least most
  have scaled : x * 2 ^ e / 2 ^ (e + k) = x / 2 ^ k := by
    rw [zpow_add₀ two_ne_zero, zpow_natCast, mul_comm x, mul_div_mul_left _ _ (two_zpow_pos e).ne']
  have nearest : Nearest (x * 2 ^ e) em.roundedMantissa (e + k) := by
    refine ⟨by rwa [scaled], by omega, ?_, ?_⟩
    · have bits : (m : ℚ) + 1 ≤ 2 ^ (m.log2 + 1) := by exact_mod_cast Nat.lt_log2_self (n := m)
      calc x * 2 ^ e < 2 ^ (m.log2 + 1) * 2 ^ e :=
            mul_lt_mul_of_pos_right (most.trans_le bits) (two_zpow_pos e)
        _ = 2 ^ ((m.log2 + 1 : ℕ) + e : ℤ) := by rw [zpow_add₀ two_ne_zero, zpow_natCast]
        _ ≤ 2 ^ (e + k + 53) := zpow_le_zpow_right₀ one_le_two (by omega)
    · by_cases bottom : e + k = -1074
      · exact .inr bottom
      · refine .inl ?_
        have some_bits : m ≠ 0 := by
          rintro rfl
          rw [Nat.log2_zero] at target
          omega
        have bits : (2 : ℚ) ^ m.log2 ≤ m := by exact_mod_cast Nat.log2_self_le some_bits
        calc (2 : ℚ) ^ (e + k + 52) = 2 ^ ((m.log2 : ℤ) + e) := by congr 1; omega
          _ = 2 ^ m.log2 * 2 ^ e := by rw [zpow_add₀ two_ne_zero, zpow_natCast]
          _ ≤ x * 2 ^ e := mul_le_mul_of_nonneg_right (bits.trans least) (two_zpow_pos e).le
  refine ⟨em.roundedMantissa, e + k, nearest, ?_⟩
  unfold UnpackedFloat.roundWithAccuracy
  rw [first]
  refine placeOf?_pack_shifted ?_ nearest.lowest (nearest.full.imp_left nearest.full_mantissa)
  refine le_of_cast_sub_half_le (nearest.half_le.trans ?_)
  rw [div_le_iff₀ (two_zpow_pos _)]
  refine nearest.below.le.trans_eq ?_
  rw [zpow_add₀ two_ne_zero, mul_comm]
  push_cast
  rfl

theorem abs_signed {s : Sign} {q : ℚ} (nonneg : 0 ≤ q) : |signed s q| = q := by
  cases s with
  | positive => exact abs_of_nonneg nonneg
  | negative => exact (abs_neg q).trans (abs_of_nonneg nonneg)

theorem magnitude_nonneg (m : ℕ) (e : ℤ) : 0 ≤ magnitude m e :=
  mul_nonneg m.cast_nonneg (two_zpow_pos e).le

/-- The place to which rounding brings an exact result. -/
def Rounded (v : ℚ) (place : Option Line) : Prop :=
  ∃ s n t, v = signed s |v| ∧ Nearest |v| n t ∧ place = some (held s (magnitude n t))

theorem Canonical.nearest {m : ℕ} {e : ℤ} (form : Canonical m e) : Nearest (magnitude m e) m e where
  near := by
    rw [magnitude, mul_div_cancel_right₀ _ (two_zpow_pos e).ne']
    norm_num
  lowest := form.lowest
  below := form.magnitude_lt_zpow
  full := form.full.imp_left Canonical.zpow_le_magnitude

theorem rounded_zero (s : Sign) : Rounded 0 (placeOf? (Float.Model.pack (.zero s)).unpack) := by
  have form : Canonical 0 (-1074) := ⟨by decide, le_rfl, by decide, .inr rfl⟩
  have none : magnitude 0 (-1074) = 0 := by rw [magnitude, Nat.cast_zero, zero_mul]
  refine ⟨.positive, 0, -1074, by rw [abs_zero]; rfl, ?_, ?_⟩
  · rw [abs_zero, ← none]
    exact form.nearest
  · rw [none, held, if_pos (by positivity)]
    cases s <;> rfl

theorem Canonical.rounded {m : ℕ} {e : ℤ} (form : Canonical m e) (pos : 0 < m) (s : Sign) :
    Rounded (signed s (magnitude m e)) (placeOf? (Float.Model.pack (.finite s m e pos)).unpack) := by
  refine ⟨s, m, e, ?_, ?_, placeOf?_pack_finite pos form.mantissa form.lowest form.full⟩
  · rw [abs_signed (magnitude_nonneg m e)]
  · rw [abs_signed (magnitude_nonneg m e)]
    exact form.nearest

theorem rounded_roundWithAccuracy (s : Sign) {m : ℕ} {e : ℤ} {a : Accuracy} {x : ℚ} (nonneg : 0 ≤ x)
    (stands : Stands (.ofMantissaAndAccuracy m a) x)
    (fine : e ≤ Format.binary64.targetExponent (Float.Model.totalExponent m e)) :
    Rounded (signed s (x * 2 ^ e))
      (placeOf? (Float.Model.pack (UnpackedFloat.roundWithAccuracy .binary64 s m e a)).unpack) := by
  have size : |signed s (x * 2 ^ e)| = x * 2 ^ e :=
    abs_signed (mul_nonneg nonneg (two_zpow_pos e).le)
  obtain ⟨n, t, nearest, place⟩ := placeOf?_roundWithAccuracy s stands fine
  exact ⟨s, n, t, by rw [size], by rw [size]; exact nearest, place⟩

end Double

end Waterfall
