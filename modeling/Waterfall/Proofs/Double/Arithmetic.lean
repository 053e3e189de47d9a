import Waterfall.Proofs.Double.Rounding

set_option autoImplicit false

namespace Waterfall

namespace Double

open Float.Model (Format UnpackedFloat)
open Float.Model.UnpackedFloat (Sign Accuracy ExtendedMantissa)

theorem log2_mul_two_pow {m : ℕ} (pos : m ≠ 0) (k : ℕ) : (m * 2 ^ k).log2 = m.log2 + k := by
  induction k with
  | zero => rw [pow_zero, mul_one, add_zero]
  | succ k ih =>
    rw [pow_succ', mul_left_comm, Nat.log2_two_mul (mul_ne_zero pos (by positivity)), ih, add_assoc]

theorem decreaseExponent_eq (m : ℕ) {e t : ℤ} (le : t ≤ e) :
    UnpackedFloat.decreaseExponent m e t = (m * 2 ^ (e - t).toNat, t) := by
  unfold UnpackedFloat.decreaseExponent
  dsimp only
  rw [Nat.shiftLeft_eq]
  congr 1
  omega

theorem magnitude_decreased (m : ℕ) {e t : ℤ} (le : t ≤ e) :
    ((m * 2 ^ (e - t).toNat : ℕ) : ℚ) * 2 ^ t = magnitude m e := by
  obtain ⟨k, rfl⟩ := Int.le.dest le
  have amount : (t + k - t).toNat = k := by omega
  rw [amount, magnitude, zpow_add₀ two_ne_zero, zpow_natCast]
  push_cast
  ring

theorem rounded_round (s : Sign) {m : ℕ} (pos : 0 < m) (e : ℤ) :
    Rounded (signed s (magnitude m e))
      (placeOf? (Float.Model.pack (UnpackedFloat.round .binary64 s m e)).unpack) := by
  unfold UnpackedFloat.round
  dsimp only
  by_cases coarse : Format.binary64.targetExponent (Float.Model.totalExponent m e) ≤ e
  · rw [decreaseExponent_eq m coarse, ← magnitude_decreased m coarse]
    refine rounded_roundWithAccuracy s (Nat.cast_nonneg _) (Stands.ofMantissa _) (le_of_eq ?_)
    rw [targetExponent_eq] at coarse ⊢
    rw [targetExponent_eq, log2_mul_two_pow pos.ne']
    omega
  · have amount : (e - Format.binary64.targetExponent (Float.Model.totalExponent m e)).toNat = 0 := by omega
    have same : UnpackedFloat.decreaseExponent m e
        (Format.binary64.targetExponent (Float.Model.totalExponent m e)) = (m, e) := by
      unfold UnpackedFloat.decreaseExponent
      dsimp only
      rw [amount, Nat.shiftLeft_zero, Nat.cast_zero, sub_zero]
    rw [same]
    exact rounded_roundWithAccuracy s m.cast_nonneg (Stands.ofMantissa m) (not_le.1 coarse).le

theorem rounded_normalize (z : ℤ) (e : ℤ) (zero : Sign) :
    Rounded (z * 2 ^ e) (placeOf? (Float.Model.pack (UnpackedFloat.normalize .binary64 z e zero)).unpack) := by
  unfold UnpackedFloat.normalize
  obtain negative | rfl | positive := lt_trichotomy z 0
  · rw [compare_lt_iff_lt.2 negative]
    have size : (z : ℚ) * 2 ^ e = signed .negative (magnitude (-z).toNat e) := by
      have : ((-z).toNat : ℤ) = -z := Int.toNat_of_nonneg (by omega)
      have : ((-z).toNat : ℚ) = -z := by exact_mod_cast this
      rw [magnitude, this]
      simp [signed]
    rw [size]
    exact rounded_round .negative (by omega) e
  · rw [compare_eq_iff_eq.2 rfl, Int.cast_zero, zero_mul]
    exact rounded_zero zero
  · rw [compare_gt_iff_gt.2 positive]
    have size : (z : ℚ) * 2 ^ e = signed .positive (magnitude z.toNat e) := by
      have : (z.toNat : ℤ) = z := Int.toNat_of_nonneg positive.le
      have : (z.toNat : ℚ) = z := by exact_mod_cast this
      rw [magnitude, this]
      rfl
    rw [size]
    exact rounded_round .positive (by omega) e

theorem signed_apply (s : Sign) (m : ℕ) {e t : ℤ} (le : t ≤ e) :
    ((s.apply (m * 2 ^ (e - t).toNat : ℕ) : ℤ) : ℚ) * 2 ^ t = signed s (magnitude m e) := by
  rw [← magnitude_decreased m le]
  cases s with
  | positive => exact congrArg (· * (2 : ℚ) ^ t) (Int.cast_natCast _)
  | negative =>
    change ((-((m * 2 ^ (e - t).toNat : ℕ) : ℤ) : ℤ) : ℚ) * 2 ^ t = -(_ * _)
    rw [Int.cast_neg, Int.cast_natCast, neg_mul]

theorem signed_mul (s s' : Sign) (p q : ℚ) : signed s p * signed s' q = signed (s * s') (p * q) := by
  cases s <;> cases s' <;> simp only [signed] <;> ring

theorem signed_div (s s' : Sign) (p q : ℚ) : signed s p / signed s' q = signed (s / s') (p / q) := by
  cases s with
  | positive =>
    cases s' with
    | positive => rfl
    | negative => exact div_neg p
  | negative =>
    cases s' with
    | positive => exact neg_div q p
    | negative => exact neg_div_neg_eq p q

theorem add_finite (s s' : Sign) {m m' : ℕ} (e e' : ℤ) (pos : 0 < m) (pos' : 0 < m') :
    UnpackedFloat.add .binary64 (.finite s m e pos) (.finite s' m' e' pos') =
      .normalize .binary64
        (s.apply (m * 2 ^ (e - min e e').toNat : ℕ) + s'.apply (m' * 2 ^ (e' - min e e').toNat : ℕ))
        (min e e') .positive := by
  simp only [UnpackedFloat.add, decreaseExponent_eq m (min_le_left e e'),
    decreaseExponent_eq m' (min_le_right e e')]

theorem unpacked_sub (u v : UnpackedFloat) :
    UnpackedFloat.sub .binary64 u v = UnpackedFloat.add .binary64 u v.neg := by
  cases u with
  | notANumber => rfl
  | infinity s | zero s => cases v <;> rfl
  | finite s m e pos =>
    cases v with
    | notANumber | infinity | zero => rfl
    | finite s' m' e' pos' =>
      cases s' with
      | positive => rfl
      | negative =>
        simp only [UnpackedFloat.sub, UnpackedFloat.add, UnpackedFloat.neg]
        congr 1
        exact sub_neg_eq_add _ _

theorem sub_eq (x y : Float) : x - y = x + -y := by
  change Float.ofModel (.pack (UnpackedFloat.sub .binary64 x.toModel.unpack y.toModel.unpack)) =
    Float.ofModel (.pack (UnpackedFloat.add .binary64 x.toModel.unpack (-y).toModel.unpack))
  rw [unpack_neg, unpacked_sub]

theorem stands_accuracyOfFraction (a : ℕ) {b : ℕ} (pos : 0 < b) :
    Stands (.ofMantissaAndAccuracy (a / b) (UnpackedFloat.accuracyOfFraction (a % b) b)) ((a : ℚ) / b) := by
  have unit : (0 : ℚ) < b := Nat.cast_pos.2 pos
  have whole : (a : ℚ) / b = (a / b : ℕ) + (a % b : ℕ) / b := by
    have : (a : ℚ) = b * (a / b : ℕ) + (a % b : ℕ) := by exact_mod_cast (Nat.div_add_mod a b).symm
    rw [this, add_div, mul_div_cancel_left₀ _ unit.ne']
  have less : ((a % b : ℕ) : ℚ) / b < 1 := by
    rw [div_lt_one unit]
    exact_mod_cast Nat.mod_lt a pos
  have half : ((2 * (a % b) : ℕ) : ℚ) / b = 2 * ((a % b : ℕ) / b) := by
    push_cast
    ring
  unfold UnpackedFloat.accuracyOfFraction
  rw [whole]
  split
  next none =>
    rw [none, Nat.cast_zero, zero_div, add_zero]
    exact Stands.ofMantissa _
  next some_rest =>
    have above : 0 < ((a % b : ℕ) : ℚ) / b := div_pos (Nat.cast_pos.2 (Nat.pos_of_ne_zero some_rest)) unit
    obtain below | same | beyond := lt_trichotomy (2 * (a % b)) b
    · rw [compare_lt_iff_lt.2 below]
      have : ((2 * (a % b) : ℕ) : ℚ) / b < 1 := (div_lt_one unit).2 (Nat.cast_lt.2 below)
      exact ⟨by linarith, by linarith⟩
    · rw [compare_eq_iff_eq.2 same]
      have : ((2 * (a % b) : ℕ) : ℚ) / b = 1 := by rw [same, div_self unit.ne']
      change _ = _
      linarith
    · rw [compare_gt_iff_gt.2 beyond]
      have : 1 < ((2 * (a % b) : ℕ) : ℚ) / b := (one_lt_div unit).2 (Nat.cast_lt.2 beyond)
      exact ⟨by linarith, by linarith⟩

theorem divCore_eq (m : ℕ) (e : ℤ) (m' : ℕ) (e' : ℤ) :
    ∃ k : ℕ, ∃ t : ℤ, t = e - e' - k ∧
      (t ≤ -1074 ∨ (53 : ℤ) ≤ (m.log2 : ℤ) - m'.log2 + k) ∧
      UnpackedFloat.divCore .binary64 m e m' e' =
        (m * 2 ^ k / m', t, UnpackedFloat.accuracyOfFraction (m * 2 ^ k % m') m') := by
  have least : Format.binary64.minExponent = -1074 := by decide
  have width : (Format.binary64.mantissaBits : ℤ) = 53 := rfl
  unfold UnpackedFloat.divCore
  dsimp only
  rw [Format.targetExponent, least, width, Float.Model.totalExponent, Float.Model.totalExponent]
  generalize target : min (e - e')
    (max ((m.log2 : ℤ) + 1 + e - ((m'.log2 : ℤ) + 1 + e') - 53) (-1074)) = t
  refine ⟨(e - e' - t).toNat, t, by omega, by omega, ?_⟩
  rw [Nat.shiftLeft_eq]

theorem divCore_fine {m m' : ℕ} (pos : 0 < m) (pos' : 0 < m') (e e' : ℤ) :
    (UnpackedFloat.divCore .binary64 m e m' e').2.1 ≤
      Format.binary64.targetExponent (Float.Model.totalExponent
        (UnpackedFloat.divCore .binary64 m e m' e').1 (UnpackedFloat.divCore .binary64 m e m' e').2.1) := by
  obtain ⟨k, t, -, long, same⟩ := divCore_eq m e m' e'
  rw [same, targetExponent_eq]
  change t ≤ max (((m * 2 ^ k / m').log2 : ℤ) + t - 52) (-1074)
  obtain bottom | long := long
  · omega
  · have full : 2 ^ 52 ≤ m * 2 ^ k / m' := by
      rw [Nat.le_div_iff_mul_le pos']
      calc 2 ^ 52 * m' ≤ 2 ^ 52 * 2 ^ (m'.log2 + 1) := Nat.mul_le_mul_left _ Nat.lt_log2_self.le
        _ = 2 ^ (52 + (m'.log2 + 1)) := (pow_add 2 _ _).symm
        _ ≤ 2 ^ (m.log2 + k) := Nat.pow_le_pow_right two_pos (by omega)
        _ = 2 ^ m.log2 * 2 ^ k := pow_add 2 _ _
        _ ≤ m * 2 ^ k := Nat.mul_le_mul_right _ (Nat.log2_self_le pos.ne')
    have := (Nat.le_log2 (by omega)).2 full
    omega

theorem stands_divCore (m : ℕ) (e : ℤ) {m' : ℕ} (pos' : 0 < m') (e' : ℤ) :
    Stands
      (.ofMantissaAndAccuracy (UnpackedFloat.divCore .binary64 m e m' e').1
        (UnpackedFloat.divCore .binary64 m e m' e').2.2)
      (magnitude m e / magnitude m' e' / 2 ^ (UnpackedFloat.divCore .binary64 m e m' e').2.1) := by
  obtain ⟨k, t, shift, -, same⟩ := divCore_eq m e m' e'
  have quotient : magnitude m e / magnitude m' e' / 2 ^ t = ((m * 2 ^ k : ℕ) : ℚ) / m' := by
    have some_rest : (m' : ℚ) ≠ 0 := Nat.cast_ne_zero.2 pos'.ne'
    rw [shift, magnitude, magnitude, zpow_sub₀ two_ne_zero, zpow_sub₀ two_ne_zero, zpow_natCast]
    push_cast
    field_simp
  rw [same]
  change Stands _ (magnitude m e / magnitude m' e' / 2 ^ t)
  rw [quotient]
  exact stands_accuracyOfFraction (m * 2 ^ k) pos'

section

variable {x y : Float} (fx : x.isFinite = true) (fy : y.isFinite = true)

include fx fy

theorem rounded_add : Rounded (value x + value y) (place? (x + y)) := by
  change Rounded _ (placeOf? (Float.Model.pack
    (UnpackedFloat.add .binary64 x.toModel.unpack y.toModel.unpack)).unpack)
  change x.toModel.unpack.isFinite = true at fx
  change y.toModel.unpack.isFinite = true at fy
  unfold value
  cases u : x.toModel.unpack with
  | notANumber | infinity => rw [u] at fx; cases fx
  | zero s =>
    cases v : y.toModel.unpack with
    | notANumber | infinity => rw [v] at fy; cases fy
    | zero s' =>
      change Rounded (0 + 0) (placeOf? (Float.Model.pack (if s == s' then .zero s else .zero .positive)).unpack)
      rw [add_zero]
      split
      next => exact rounded_zero s
      next => exact rounded_zero .positive
    | finite s' m' e' pos' =>
      change Rounded (0 + signed s' (magnitude m' e')) _
      rw [zero_add]
      exact (canonical_of_unpack v).rounded pos' s'
  | finite s m e pos =>
    cases v : y.toModel.unpack with
    | notANumber | infinity => rw [v] at fy; cases fy
    | zero s' =>
      change Rounded (signed s (magnitude m e) + 0) _
      rw [add_zero]
      exact (canonical_of_unpack u).rounded pos s
    | finite s' m' e' pos' =>
      change Rounded (signed s (magnitude m e) + signed s' (magnitude m' e')) _
      rw [add_finite, ← signed_apply s m (min_le_left e e'), ← signed_apply s' m' (min_le_right e e'),
        ← add_mul, ← Int.cast_add]
      exact rounded_normalize _ _ .positive

theorem rounded_sub : Rounded (value x - value y) (place? (x - y)) := by
  have negated : (-y).isFinite = true := (isFinite_neg y).trans fy
  rw [sub_eq, sub_eq_add_neg, ← value_neg]
  exact rounded_add fx negated

theorem rounded_mul : Rounded (value x * value y) (place? (x * y)) := by
  change Rounded _ (placeOf? (Float.Model.pack
    (UnpackedFloat.mul .binary64 x.toModel.unpack y.toModel.unpack)).unpack)
  change x.toModel.unpack.isFinite = true at fx
  change y.toModel.unpack.isFinite = true at fy
  unfold value
  cases u : x.toModel.unpack with
  | notANumber | infinity => rw [u] at fx; cases fx
  | zero s =>
    have nothing : valueOf (.zero s) * valueOf y.toModel.unpack = 0 := zero_mul _
    rw [nothing]
    cases v : y.toModel.unpack with
    | notANumber | infinity => rw [v] at fy; cases fy
    | zero s' | finite s' => exact rounded_zero (s * s')
  | finite s m e pos =>
    cases v : y.toModel.unpack with
    | notANumber | infinity => rw [v] at fy; cases fy
    | zero s' =>
      change Rounded (signed s (magnitude m e) * 0) _
      rw [mul_zero]
      exact rounded_zero (s * s')
    | finite s' m' e' pos' =>
      have form := canonical_of_unpack u
      have form' := canonical_of_unpack v
      have product : signed s (magnitude m e) * signed s' (magnitude m' e') =
          signed (s * s') ((m * m' : ℕ) * 2 ^ (e + e')) := by
        rw [signed_mul, magnitude, magnitude, zpow_add₀ two_ne_zero, Nat.cast_mul]
        congr 1
        ring
      change Rounded (signed s (magnitude m e) * signed s' (magnitude m' e')) _
      rw [product]
      refine rounded_roundWithAccuracy (s * s') (Nat.cast_nonneg _) (Stands.ofMantissa (m * m')) ?_
      -- Either factor with a full mantissa makes the product long enough.
      have long (full : 2 ^ 52 ≤ m * m') : 52 ≤ (m * m').log2 := (Nat.le_log2 (by positivity)).2 full
      rw [targetExponent_eq]
      obtain full | bottom := form.full
      · have := long (full.trans (Nat.le_mul_of_pos_right m pos'))
        omega
      · obtain full | bottom' := form'.full
        · have := long (full.trans (Nat.le_mul_of_pos_left m' pos))
          omega
        · omega

theorem rounded_div (apart : value y ≠ 0) : Rounded (value x / value y) (place? (x / y)) := by
  change Rounded _ (placeOf? (Float.Model.pack
    (UnpackedFloat.div .binary64 x.toModel.unpack y.toModel.unpack)).unpack)
  change x.toModel.unpack.isFinite = true at fx
  change y.toModel.unpack.isFinite = true at fy
  unfold value at apart ⊢
  cases v : y.toModel.unpack with
  | notANumber | infinity => rw [v] at fy; cases fy
  | zero s' => rw [v] at apart; exact absurd rfl apart
  | finite s' m' e' pos' =>
    cases u : x.toModel.unpack with
    | notANumber | infinity => rw [u] at fx; cases fx
    | zero s =>
      change Rounded (0 / _) _
      rw [zero_div]
      exact rounded_zero (s / s')
    | finite s m e pos =>
      have fine := divCore_fine pos pos' e e'
      have stands := stands_divCore m e pos' e'
      unfold UnpackedFloat.div
      dsimp only
      generalize UnpackedFloat.divCore .binary64 m e m' e' = core at fine stands
      obtain ⟨q, t, a⟩ := core
      have unit := two_zpow_pos t
      have nonneg : 0 ≤ magnitude m e / magnitude m' e' / 2 ^ t :=
        div_nonneg (div_nonneg (magnitude_nonneg m e) (magnitude_nonneg m' e')) unit.le
      have rounded := rounded_roundWithAccuracy (s / s') nonneg stands fine
      rw [div_mul_cancel₀ _ unit.ne', ← signed_div] at rounded
      exact rounded

end

theorem value_of_place? {x : Float} {q : ℚ} (place : place? x = some (q : WithTop ℚ)) :
    x.isFinite = true ∧ value x = q := by
  have finite : x.isFinite = true := by
    change placeOf? x.toModel.unpack = _ at place
    change x.toModel.unpack.isFinite = true
    cases u : x.toModel.unpack with
    | notANumber => rw [u] at place; cases place
    | infinity s => rw [u] at place; cases s <;> cases place
    | zero | finite => rfl
  rw [place?_of_isFinite finite] at place
  refine ⟨finite, ?_⟩
  simpa using place

theorem exists_canonical {x : Float} (finite : x.isFinite = true) :
    ∃ m e, Canonical m e ∧ |value x| = magnitude m e := by
  change x.toModel.unpack.isFinite = true at finite
  unfold value
  cases u : x.toModel.unpack with
  | notANumber | infinity => rw [u] at finite; cases finite
  | zero s =>
    refine ⟨0, -1074, ⟨by decide, le_rfl, by decide, .inr rfl⟩, ?_⟩
    rw [magnitude, Nat.cast_zero, zero_mul]
    exact abs_zero
  | finite s m e pos => exact ⟨m, e, canonical_of_unpack u, abs_signed (magnitude_nonneg m e)⟩

theorem Canonical.magnitude_lt_end {m : ℕ} {e : ℤ} (form : Canonical m e) : magnitude m e < 2 ^ 1024 := by
  have highest := form.highest
  calc magnitude m e < 2 ^ (e + 53) := form.magnitude_lt_zpow
    _ ≤ 2 ^ (1024 : ℤ) := zpow_le_zpow_right₀ one_le_two (by omega)
    _ = 2 ^ 1024 := zpow_natCast 2 1024

theorem held_of_lt {s : Sign} {q : ℚ} (inside : q < 2 ^ 1024) : held s q = (signed s q : WithTop ℚ) :=
  if_pos inside

theorem le_held {p q : ℚ} (h : p ≤ q) : ((p : WithTop ℚ) : Line) ≤ held .positive q := by
  unfold held
  split
  next => exact WithBot.coe_le_coe.2 (WithTop.coe_le_coe.2 h)
  next => exact le_top

theorem held_le {p q : ℚ} (h : -q ≤ p) : held .negative q ≤ ((p : WithTop ℚ) : Line) := by
  unfold held
  split
  next => exact WithBot.coe_le_coe.2 (WithTop.coe_le_coe.2 h)
  next => exact bot_le

section

variable {v : ℚ} {x y : Float} {m : ℕ} {e : ℤ}

theorem Rounded.within (rounded : Rounded v (place? y)) (form : Canonical m e) (h : |v| ≤ magnitude m e) :
    y.isFinite = true ∧ |value y| ≤ magnitude m e ∧ |value y - v| ≤ |v| / 2 ^ 53 + slack := by
  obtain ⟨s, n, t, sign, nearest, place⟩ := rounded
  have below := nearest.le_magnitude form h
  rw [held_of_lt (below.trans_lt form.magnitude_lt_end)] at place
  obtain ⟨finite, same⟩ := value_of_place? place
  refine ⟨finite, ?_, ?_⟩
  · rw [same, abs_signed (magnitude_nonneg n t)]
    exact below
  · have error := nearest.error_le (abs_nonneg v)
    rw [same]
    generalize |v| = size at sign error
    rw [sign]
    cases s with
    | positive => exact error
    | negative =>
      have turned : signed .negative (magnitude n t) - signed .negative size = -(magnitude n t - size) := by
        simp only [signed]
        ring
      rwa [turned, abs_neg]

theorem Rounded.le (rounded : Rounded v (place? y)) (finite : x.isFinite = true) (h : value x ≤ v) : x ≤ y := by
  obtain ⟨s, n, t, sign, nearest, place⟩ := rounded
  refine le_iff.2 ⟨_, _, place?_of_isFinite finite, place, ?_⟩
  obtain ⟨m, e, form, size⟩ := exists_canonical finite
  cases s with
  | positive =>
    change v = |v| at sign
    refine le_held ?_
    obtain nonpos | nonneg := le_total (value x) 0
    · exact nonpos.trans (magnitude_nonneg n t)
    · rw [abs_of_nonneg nonneg] at size
      rw [size]
      exact nearest.magnitude_le form (by rw [← size, ← sign]; exact h)
  | negative =>
    change v = -|v| at sign
    have nonpos : v ≤ 0 := by rw [sign]; exact neg_nonpos.2 (abs_nonneg v)
    have below := nearest.le_magnitude form (by
      rw [← size, abs_of_nonpos nonpos, abs_of_nonpos (h.trans nonpos)]
      exact neg_le_neg h)
    rw [held_of_lt (below.trans_lt form.magnitude_lt_end)]
    refine WithBot.coe_le_coe.2 (WithTop.coe_le_coe.2 ?_)
    rw [← size, abs_of_nonpos (h.trans nonpos)] at below
    exact le_neg.2 below

theorem Rounded.ge (rounded : Rounded v (place? y)) (finite : x.isFinite = true) (h : v ≤ value x) : y ≤ x := by
  obtain ⟨s, n, t, sign, nearest, place⟩ := rounded
  refine le_iff.2 ⟨_, _, place, place?_of_isFinite finite, ?_⟩
  obtain ⟨m, e, form, size⟩ := exists_canonical finite
  cases s with
  | negative =>
    change v = -|v| at sign
    refine held_le ?_
    obtain nonneg | nonpos := le_total 0 (value x)
    · exact (neg_nonpos.2 (magnitude_nonneg n t)).trans nonneg
    · rw [abs_of_nonpos nonpos] at size
      rw [neg_le, size]
      exact nearest.magnitude_le form (by rw [← size, le_abs']; exact .inl (by rw [neg_neg]; exact h))
  | positive =>
    change v = |v| at sign
    have nonneg : 0 ≤ v := by rw [sign]; exact abs_nonneg v
    have below := nearest.le_magnitude form (by
      rw [← size, abs_of_nonneg nonneg, abs_of_nonneg (nonneg.trans h)]
      exact h)
    rw [held_of_lt (below.trans_lt form.magnitude_lt_end)]
    refine WithBot.coe_le_coe.2 (WithTop.coe_le_coe.2 ?_)
    rwa [← size, abs_of_nonneg (nonneg.trans h)] at below

end

theorem scalar_one : @OfNat.ofNat Float 1 (Scalar.instOfNat 1) = 1 := by
  decide

theorem value_one : value 1 = 1 := by
  have unpacked : (1 : Float).toModel.unpack = .finite .positive (2 ^ 52) (-52) (by decide) := rfl
  rw [value, unpacked]
  norm_num [valueOf, signed, magnitude]

section

variable {x y z : Float}

theorem Rounded.isNaN {v : ℚ} (rounded : Rounded v (place? x)) : x.isNaN = false := by
  obtain ⟨s, n, t, -, -, place⟩ := rounded
  exact exists_place?_iff.1 ⟨_, place⟩

theorem isFinite_of_between (fx : x.isFinite = true) (fz : z.isFinite = true) (above : x ≤ y) (below : y ≤ z) :
    y.isFinite = true := by
  obtain ⟨p, q, hp, hq, above⟩ := le_iff.1 above
  obtain ⟨q', r, hq', hr, below⟩ := le_iff.1 below
  rw [place?_of_isFinite fx] at hp
  rw [place?_of_isFinite fz] at hr
  cases hp
  cases hr
  cases hq.symm.trans hq'
  cases q using WithBot.recBotCoe with
  | bot => exact absurd above (not_le.2 (WithBot.bot_lt_coe _))
  | coe q =>
    cases q using WithTop.recTopCoe with
    | top => exact absurd (WithBot.coe_le_coe.1 below) (not_le.2 (WithTop.coe_lt_top _))
    | coe q => exact (value_of_place? hq).1

theorem le_mul_of_one_le (fx : x.isFinite = true) (fy : y.isFinite = true) (nonneg : 0 ≤ value x)
    (grows : 1 ≤ value y) : x ≤ x * y :=
  (rounded_mul fx fy).le fx (le_mul_of_one_le_right nonneg grows)

theorem mul_le_of_le_one (fx : x.isFinite = true) (fy : y.isFinite = true) (nonneg : 0 ≤ value x)
    (shrinks : value y ≤ 1) : x * y ≤ x :=
  (rounded_mul fx fy).ge fx (mul_le_of_le_one_right nonneg shrinks)

-- One part of infinitely many is nothing.
theorem isFinite_of_div_pos (fx : x.isFinite = true) (finite : (x / y).isFinite = true)
    (positive : ¬ x / y ≤ 0) : y.isFinite = true := by
  change (Float.Model.pack (UnpackedFloat.div .binary64 x.toModel.unpack y.toModel.unpack)).unpack.isFinite =
    true at finite
  change ¬ Float.ofModel (.pack (UnpackedFloat.div .binary64 x.toModel.unpack y.toModel.unpack)) ≤ 0 at positive
  change x.toModel.unpack.isFinite = true at fx
  change y.toModel.unpack.isFinite = true
  generalize x.toModel.unpack = u at fx finite positive
  generalize y.toModel.unpack = v at finite positive ⊢
  cases v with
  | zero | finite => rfl
  | notANumber =>
    cases u with
    | notANumber | infinity => cases fx
    | zero | finite =>
      change (Float.Model.pack .notANumber).unpack.isFinite = true at finite
      exact absurd finite (by decide)
  | infinity s =>
    have nothing (s : UnpackedFloat.Sign) : Float.ofModel (.pack (.zero s)) ≤ 0 := by
      cases s <;> decide
    cases u with
    | notANumber | infinity => cases fx
    | zero s' | finite s' => exact absurd (nothing (s' / s)) positive

end

end Double

end Waterfall
