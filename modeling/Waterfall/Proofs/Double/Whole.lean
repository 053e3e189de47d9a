import Waterfall.Proofs.Double.Order

set_option autoImplicit false

namespace Waterfall

namespace Double

open Float.Model (Format UnpackedFloat)
open Float.Model.UnpackedFloat (Sign ExtendedMantissa)

def exactly (m : ℕ) : ExtendedMantissa := ⟨m, false, false⟩

theorem shift_exactly (q n : ℕ) : exactly (q * 2 ^ n) >>> n = exactly q := by
  induction n generalizing q with
  | zero => rw [pow_zero, mul_one]; rfl
  | succ n ih =>
    have doubled := ih (q * 2)
    rw [mul_assoc, ← pow_succ'] at doubled
    change (exactly (q * 2 ^ (n + 1)) >>> n).shiftRightOne = _
    rw [doubled]
    simp [exactly, ExtendedMantissa.shiftRightOne]

theorem mantissa_shift (em : ExtendedMantissa) (n : ℕ) :
    (em >>> n).mantissa = em.mantissa / 2 ^ n := by
  induction n with
  | zero => exact (Nat.div_one _).symm
  | succ n ih =>
    change (em >>> n).mantissa / 2 = _
    rw [ih, Nat.div_div_eq_div_mul, ← pow_succ]

theorem targetExponent_eq (m : ℕ) (e : ℤ) :
    Format.binary64.targetExponent (Float.Model.totalExponent m e) = max (m.log2 + e - 52) (-1074) := by
  have least : Format.binary64.minExponent = -1074 := by decide
  have width : (Format.binary64.mantissaBits : ℤ) = 53 := rfl
  rw [Format.targetExponent, Float.Model.totalExponent, least, width]
  congr 1
  omega

theorem Canonical.target {m : ℕ} {e : ℤ} (form : Canonical m e) (pos : 0 < m) :
    Format.binary64.targetExponent (Float.Model.totalExponent m e) = e := by
  obtain ⟨mantissa, lowest, highest, full⟩ := form
  have bits : m.log2 < 53 ↔ m < 2 ^ 53 := Nat.log2_lt pos.ne'
  have filled : 52 ≤ m.log2 ↔ 2 ^ 52 ≤ m := Nat.le_log2 pos.ne'
  rw [targetExponent_eq]
  omega

theorem shiftToExponent_exactly (q n : ℕ) (e : ℤ) :
    UnpackedFloat.shiftToExponent (q * 2 ^ n) e .exact (e + n) = (exactly q, e + n) := by
  have amount : (e + n - e).toNat = n := by omega
  unfold UnpackedFloat.shiftToExponent
  dsimp only
  rw [amount]
  exact congrArg (·, e + n) (shift_exactly q n)

-- The bits that are shifted out are all zero.
theorem roundWithAccuracy_exactly {q n : ℕ} {e : ℤ} (pos : 0 < q) (form : Canonical q (e + n))
    (target : Format.binary64.targetExponent (Float.Model.totalExponent (q * 2 ^ n) e) = e + n)
    (s : Sign) :
    UnpackedFloat.roundWithAccuracy .binary64 s (q * 2 ^ n) e .exact = .finite s q (e + n) pos := by
  have first : UnpackedFloat.shiftToTargetExponent .binary64 (q * 2 ^ n) e .exact =
      (exactly q, e + n) := by
    unfold UnpackedFloat.shiftToTargetExponent
    rw [target]
    exact shiftToExponent_exactly q n e
  have second : UnpackedFloat.shiftToTargetExponent .binary64 q (e + n) .exact =
      (exactly q, e + n) := by
    unfold UnpackedFloat.shiftToTargetExponent
    rw [form.target pos]
    simpa using shiftToExponent_exactly q 0 (e + n)
  unfold UnpackedFloat.roundWithAccuracy
  rw [first]
  dsimp only
  change (match UnpackedFloat.shiftToTargetExponent .binary64 q (e + n) .exact with
    | (final, exponent) =>
      if h : final.mantissa = 0 then UnpackedFloat.zero s
      else .finite s final.mantissa exponent (Nat.pos_of_ne_zero h)) = _
  rw [second]
  exact dif_neg pos.ne'

theorem Canonical.roundWithAccuracy {m : ℕ} {e : ℤ} (form : Canonical m e) (pos : 0 < m)
    (s : Sign) : UnpackedFloat.roundWithAccuracy .binary64 s m e .exact = .finite s m e pos := by
  have still : e + (0 : ℕ) = e := add_zero e
  have rounded := @roundWithAccuracy_exactly m 0 e pos (still.symm ▸ form)
  rw [pow_zero, mul_one, still] at rounded
  exact rounded (form.target pos) s

def Short (n : ℕ) : Prop := ∃ m k, n = m * 2 ^ k ∧ m < 2 ^ 53

theorem magnitude_natCast (q n : ℕ) : magnitude q (n : ℤ) = (q * 2 ^ n : ℕ) := by
  rw [magnitude, zpow_natCast]
  push_cast
  rfl

theorem magnitude_neg_eq_div (q n : ℕ) : magnitude q (-n : ℤ) = (q : ℚ) / (2 ^ n : ℕ) := by
  rw [magnitude, zpow_neg, zpow_natCast, Nat.cast_pow, Nat.cast_ofNat, div_eq_mul_inv]

theorem magnitude_neg_natCast (q n : ℕ) : magnitude (q * 2 ^ n) (-n : ℤ) = q := by
  rw [magnitude_neg_eq_div, Nat.cast_mul, mul_div_cancel_right₀]
  exact Nat.cast_ne_zero.2 (by positivity)

theorem round_short {n : ℕ} (pos : 0 < n) (short : Short n) (word : n < 2 ^ 64) (s : Sign) :
    ∃ m e, ∃ pos' : 0 < m, UnpackedFloat.round .binary64 s n 0 = .finite s m e pos' ∧
      Canonical m e ∧ magnitude m e = n := by
  have above : 2 ^ n.log2 ≤ n := Nat.log2_self_le pos.ne'
  have below : n < 2 ^ (n.log2 + 1) := Nat.lt_log2_self
  have size : n.log2 < 64 := (Nat.log2_lt pos.ne').2 word
  unfold UnpackedFloat.round UnpackedFloat.decreaseExponent
  rw [targetExponent_eq]
  dsimp only
  by_cases fits : n.log2 ≤ 52
  · -- The mantissa is filled up with zeros.
    obtain ⟨d, filled⟩ := Nat.exists_eq_add_of_le fits
    have amount : ((0 : ℤ) - max ((n.log2 : ℤ) + 0 - 52) (-1074)).toNat = d := by omega
    have form : Canonical (n * 2 ^ d) (-d) := by
      refine ⟨?_, by omega, by omega, .inl ?_⟩
      · calc n * 2 ^ d < 2 ^ (n.log2 + 1) * 2 ^ d := by gcongr
          _ = 2 ^ 53 := by rw [← pow_add]; congr 1; omega
      · calc 2 ^ 52 = 2 ^ n.log2 * 2 ^ d := by rw [← pow_add, ← filled]
          _ ≤ n * 2 ^ d := by gcongr
    have pos' : 0 < n * 2 ^ d := Nat.mul_pos pos (by positivity)
    rw [amount, Nat.shiftLeft_eq, zero_sub]
    exact ⟨_, _, pos', form.roundWithAccuracy pos' s, form, magnitude_neg_natCast n d⟩
  · -- The last bits are zeros already.
    obtain ⟨d, filled⟩ := Nat.exists_eq_add_of_le (not_le.1 fits).le
    have amount : ((0 : ℤ) - max ((n.log2 : ℤ) + 0 - 52) (-1074)).toNat = 0 := by omega
    obtain ⟨m, k, held, narrow⟩ := short
    have inside : d ≤ k := by
      have wide : 2 ^ n.log2 < 2 ^ (53 + k) := by
        calc 2 ^ n.log2 ≤ m * 2 ^ k := above.trans_eq held
          _ < 2 ^ 53 * 2 ^ k := by gcongr
          _ = 2 ^ (53 + k) := (pow_add 2 53 k).symm
      have := (Nat.pow_lt_pow_iff_right one_lt_two).1 wide
      omega
    have split : n = m * 2 ^ (k - d) * 2 ^ d := by
      rw [held, mul_assoc, ← pow_add, Nat.sub_add_cancel inside]
    generalize m * 2 ^ (k - d) = q at split
    have pos' : 0 < q := by
      rw [split] at pos
      exact Nat.pos_of_mul_pos_right pos
    have form : Canonical q ((0 : ℤ) + d) := by
      have unit : 0 < 2 ^ d := by positivity
      refine ⟨?_, by omega, by omega, .inl ?_⟩
      · refine Nat.lt_of_mul_lt_mul_right (a := 2 ^ d) ?_
        calc q * 2 ^ d < 2 ^ (n.log2 + 1) := split ▸ below
          _ = 2 ^ 53 * 2 ^ d := by rw [← pow_add]; congr 1; omega
      · refine Nat.le_of_mul_le_mul_right ?_ unit
        calc 2 ^ 52 * 2 ^ d = 2 ^ n.log2 := by rw [← pow_add, ← filled]
          _ ≤ q * 2 ^ d := split ▸ above
    have target : Format.binary64.targetExponent (Float.Model.totalExponent (q * 2 ^ d) 0) = 0 + d := by
      rw [targetExponent_eq, ← split]
      omega
    have rounded := roundWithAccuracy_exactly pos' form target s
    rw [← split] at rounded
    rw [amount, Nat.shiftLeft_eq, pow_zero, mul_one, Nat.cast_zero, sub_zero]
    refine ⟨q, 0 + d, pos', rounded, form, ?_⟩
    rw [zero_add, magnitude_natCast, ← split]

theorem ofUInt64_of_short {n : UInt64} (pos : 0 < n.toNat) (short : Short n.toNat) :
    ∃ m e, ∃ pos' : 0 < m, UnpackedFloat.ofUInt64 .binary64 n = .finite .positive m e pos' ∧
      Canonical m e ∧ magnitude m e = n.toNat := by
  obtain ⟨m, e, pos', rounded, form, same⟩ := round_short pos short n.toNat_lt .positive
  refine ⟨m, e, pos', ?_, form, same⟩
  change UnpackedFloat.normalize .binary64 (n.toNat : ℤ) 0 .positive = _
  unfold UnpackedFloat.normalize
  rw [compare_gt_iff_gt.2 (Int.natCast_pos.2 pos)]
  exact rounded

theorem unpack_toFloat {n : UInt64} (short : Short n.toNat) :
    n.toFloat.toModel.unpack = UnpackedFloat.ofUInt64 .binary64 n := by
  change (Float.Model.pack (UnpackedFloat.ofUInt64 .binary64 n)).unpack = _
  obtain zero | pos := n.toNat.eq_zero_or_pos
  · obtain rfl : n = 0 := UInt64.toNat_inj.1 zero
    rfl
  · obtain ⟨m, e, pos', held, form, -⟩ := ofUInt64_of_short pos short
    rw [held]
    exact unpack_pack form pos'

theorem toFloat_of_short {n : UInt64} (short : Short n.toNat) :
    n.toFloat.isFinite = true ∧ value n.toFloat = n.toNat := by
  change n.toFloat.toModel.unpack.isFinite = true ∧ valueOf n.toFloat.toModel.unpack = _
  rw [unpack_toFloat short]
  obtain zero | pos := n.toNat.eq_zero_or_pos
  · obtain rfl : n = 0 := UInt64.toNat_inj.1 zero
    exact ⟨rfl, rfl⟩
  · obtain ⟨m, e, pos', held, -, same⟩ := ofUInt64_of_short pos short
    rw [held]
    exact ⟨rfl, same⟩

theorem roundToInt_eq (s : Sign) (m : ℕ) (e : ℤ) :
    UnpackedFloat.roundToInt s m e = s.apply ⌊magnitude m e⌋₊ := by
  unfold UnpackedFloat.roundToInt UnpackedFloat.decreaseExponent UnpackedFloat.shiftToExponent
  dsimp only
  rw [mantissa_shift]
  obtain ⟨k, rfl | rfl⟩ := e.eq_nat_or_neg
  · have left : ((k : ℤ) - 0).toNat = k := by omega
    have right : ((0 : ℤ) - (k - k)).toNat = 0 := by omega
    rw [left, right, magnitude_natCast, Nat.floor_natCast, pow_zero, Nat.div_one]
    exact congrArg _ (congrArg _ (Nat.shiftLeft_eq m k))
  · have left : (-(k : ℤ) - 0).toNat = 0 := by omega
    have right : ((0 : ℤ) - (-k - (0 : ℕ))).toNat = k := by omega
    rw [left, right, magnitude_neg_eq_div, Nat.floor_div_eq_div]
    rfl

theorem toNat_ofNatClamp (n : ℕ) : (UInt64.ofNatClamp n).toNat = min n (2 ^ 64 - 1) := by
  unfold UInt64.ofNatClamp
  split
  next fits =>
    change n = _
    have : n < 2 ^ 64 := fits
    omega
  next outside =>
    have : ¬ n < 2 ^ 64 := outside
    change 2 ^ 64 - 1 = _
    omega

theorem toNat_toUInt64 {x : Float} (finite : x.isFinite = true) :
    x.toUInt64.toNat = min ⌊value x⌋₊ (2 ^ 64 - 1) := by
  change x.toModel.unpack.isFinite = true at finite
  change (UInt64.ofNatClamp (x.toModel.unpack.toInt 0 (UInt64.size - 1)).toNat).toNat =
    min ⌊valueOf x.toModel.unpack⌋₊ _
  rw [toNat_ofNatClamp]
  congr 1
  cases u : x.toModel.unpack with
  | notANumber | infinity => rw [u] at finite; cases finite
  | zero => exact Nat.floor_zero.symm
  | finite s m e pos =>
    change (UnpackedFloat.roundToInt s m e).toNat = ⌊signed s (magnitude m e)⌋₊
    rw [roundToInt_eq]
    cases s with
    | positive => rfl
    | negative =>
      have below : -magnitude m e ≤ 0 := neg_nonpos.2 (magnitude_pos pos e).le
      exact (Int.toNat_of_nonpos (neg_nonpos.2 (Int.natCast_nonneg _))).trans (Nat.floor_of_nonpos below).symm

theorem toNat_toUInt64_le {x : Float} (finite : x.isFinite = true) {bound : ℕ}
    (h : value x ≤ bound) : x.toUInt64.toNat ≤ bound := by
  rw [toNat_toUInt64 finite]
  exact (Nat.min_le_left _ _).trans (Nat.floor_le_of_le h)

structure Settled (n : UInt64) : Prop where
  finite : n.toFloat.isFinite = true
  notNegative : ¬ n.toFloat < 0
  read : n.toFloat.toUInt64 = n

theorem Settled.nonneg {n : UInt64} (settled : Settled n) : 0 ≤ n.toFloat := by
  have above := mt (lt_iff_value settled.finite (by decide)).2 settled.notNegative
  exact (le_iff_value (by decide) settled.finite).2 (not_lt.1 above)

theorem settled_of_short {n : UInt64} (short : Short n.toNat) : Settled n := by
  obtain ⟨finite, same⟩ := toFloat_of_short short
  refine ⟨finite, ?_, ?_⟩
  · rw [lt_iff_value finite (by decide), same]
    exact not_lt.2 (Nat.cast_nonneg _)
  · rw [← UInt64.toNat_inj, toNat_toUInt64 finite, same, Nat.floor_natCast]
    have := n.toNat_lt
    omega

theorem settled_last : Settled 18446744073709551615 :=
  ⟨by decide, by decide, by decide⟩

theorem short_of_lt {n : ℕ} (narrow : n < 2 ^ 53) : Short n :=
  ⟨n, 0, (mul_one n).symm, narrow⟩

-- A fraction that is cut off leaves less than the mantissa.
theorem short_floor_value (x : Float) : Short ⌊value x⌋₊ := by
  unfold value
  cases u : x.toModel.unpack with
  | notANumber | infinity | zero =>
    change Short ⌊(0 : ℚ)⌋₊
    rw [Nat.floor_zero]
    exact short_of_lt (by decide)
  | finite s m e pos =>
    have narrow := (canonical_of_unpack u).mantissa
    cases s with
    | negative =>
      have below : -magnitude m e ≤ 0 := neg_nonpos.2 (magnitude_pos pos e).le
      change Short ⌊-magnitude m e⌋₊
      rw [Nat.floor_of_nonpos below]
      exact short_of_lt (by decide)
    | positive =>
      change Short ⌊magnitude m e⌋₊
      obtain ⟨k, rfl | rfl⟩ := e.eq_nat_or_neg
      · rw [magnitude_natCast, Nat.floor_natCast]
        exact ⟨m, k, rfl, narrow⟩
      · rw [magnitude_neg_eq_div, Nat.floor_div_eq_div]
        exact short_of_lt ((Nat.div_le_self m _).trans_lt narrow)

theorem settled_toUInt64 (x : Float) : Settled x.toUInt64 := by
  by_cases finite : x.isFinite = true
  · have read := toNat_toUInt64 finite
    by_cases fits : ⌊value x⌋₊ < 2 ^ 64
    · apply settled_of_short
      rw [read, Nat.min_eq_left (by omega)]
      exact short_floor_value x
    · have last : x.toUInt64 = 18446744073709551615 := by
        rw [← UInt64.toNat_inj, read]
        exact Nat.min_eq_right (by omega)
      exact last ▸ settled_last
  · change ¬ x.toModel.unpack.isFinite = true at finite
    change Settled x.toModel.unpack.toUInt64
    generalize x.toModel.unpack = u at finite ⊢
    cases u with
    | notANumber => exact settled_of_short (short_of_lt (by decide))
    | infinity s =>
      cases s with
      | positive => exact settled_last
      | negative => exact settled_of_short (short_of_lt (by decide))
    | zero | finite => exact absurd rfl finite

theorem lt_irrefl (x : Float) : ¬ x < x := by
  intro less
  obtain ⟨p, q, hp, hq, less⟩ := lt_iff.1 less
  cases hp.symm.trans hq
  exact less.false

theorem floor_toFloat {n : UInt64} (settled : Settled n) : floor n.toFloat = n.toFloat := by
  have zero : (0.0 : Float) = 0 := by decide
  unfold floor
  split
  next =>
    rw [settled.read, zero, if_neg settled.notNegative]
    dsimp only
    rw [if_neg (lt_irrefl _)]
    split
    next none =>
      have nothing : n = 0 := by
        have null : value n.toFloat = 0 := (beq_iff_value settled.finite (by decide)).1 none
        have read := toNat_toUInt64 settled.finite
        rw [null, settled.read, Nat.floor_zero] at read
        exact UInt64.toNat_inj.1 read
      rw [nothing]
      decide
    next => rfl
  next => rfl

theorem trunc_toFloat {n : UInt64} (settled : Settled n) : Scalar.trunc n.toFloat = n.toFloat := by
  rw [Scalar.trunc, scalar_zero, if_neg settled.notNegative]
  exact floor_toFloat settled

theorem round_toFloat {n : UInt64} (settled : Settled n) : Scalar.round n.toFloat = n.toFloat := by
  unfold Scalar.round
  rw [trunc_toFloat settled, scalar_zero, if_neg settled.notNegative, sub_self settled.finite]
  exact if_pos (by decide)

theorem unpack_neg (x : Float) : (-x).toModel.unpack = x.toModel.unpack.neg := by
  change (Float.Model.pack x.toModel.unpack.neg).unpack = _
  cases u : x.toModel.unpack with
  | notANumber => rfl
  | infinity s | zero s => cases s <;> rfl
  | finite s m e pos => exact unpack_pack (canonical_of_unpack u) pos

theorem isFinite_neg (x : Float) : (-x).isFinite = x.isFinite := by
  change (-x).toModel.unpack.isFinite = x.toModel.unpack.isFinite
  rw [unpack_neg]
  cases x.toModel.unpack <;> rfl

theorem value_neg (x : Float) : value (-x) = -value x := by
  unfold value
  rw [unpack_neg]
  cases x.toModel.unpack with
  | notANumber | infinity | zero => exact neg_zero.symm
  | finite s m e pos =>
    cases s with
    | positive => rfl
    | negative => exact (neg_neg _).symm

theorem unpacked_neg_neg (u : UnpackedFloat) : u.neg.neg = u := by
  cases u with
  | notANumber => rfl
  | infinity s | zero s | finite s => cases s <;> rfl

theorem neg_neg_toFloat {n : UInt64} (short : Short n.toNat) : - -n.toFloat = n.toFloat := by
  change Float.ofModel (.pack (-n.toFloat).toModel.unpack.neg) = n.toFloat
  rw [unpack_neg, unpacked_neg_neg, unpack_toFloat short]
  rfl

structure Whole (c : ℤ) (y : Float) : Prop where
  finite : y.isFinite = true
  same : value y = c
  trunc : Scalar.trunc y = y
  read : Scalar.toInt y = c

theorem whole_ofInt {c : ℤ} (narrow : c.natAbs < 2 ^ 53) : Whole c (Scalar.ofInt c) := by
  have size : (UInt64.ofNat c.natAbs).toNat = c.natAbs := by
    rw [UInt64.toNat_ofNat']
    omega
  have nearest : nearest c.natAbs = (UInt64.ofNat c.natAbs).toFloat :=
    if_pos (narrow.trans (by decide))
  generalize UInt64.ofNat c.natAbs = n at size nearest
  have short : Short n.toNat := short_of_lt (size ▸ narrow)
  have settled := settled_of_short short
  obtain ⟨finite, same⟩ := toFloat_of_short short
  unfold Scalar.ofInt
  change Whole c (if c < 0 then -Double.nearest c.natAbs else Double.nearest c.natAbs)
  rw [nearest]
  split
  next negative =>
    have below : -n.toFloat < 0 := by
      rw [lt_iff_value (by rw [isFinite_neg]; exact finite) (by decide), value_neg, same]
      exact neg_lt_zero.2 (Nat.cast_pos.2 (by omega))
    refine ⟨(isFinite_neg _).trans finite, ?_, ?_, ?_⟩
    · have minus : -(c.natAbs : ℤ) = c := by omega
      rw [value_neg, same, size, ← Int.cast_natCast, ← Int.cast_neg, minus]
    · rw [Scalar.trunc, scalar_zero, if_pos below, Scalar.ceil, neg_neg_toFloat short]
      exact congrArg _ (floor_toFloat settled)
    · rw [Scalar.toInt, scalar_zero, if_pos below, neg_neg_toFloat short]
      change -((min n.toFloat.toUInt64.toNat (2 ^ 63) : ℕ) : ℤ) = c
      rw [settled.read]
      omega
  next notNegative =>
    refine ⟨finite, ?_, trunc_toFloat settled, ?_⟩
    · have plus : (c.natAbs : ℤ) = c := by omega
      rw [same, size, ← Int.cast_natCast, plus]
    · rw [Scalar.toInt, scalar_zero, if_neg settled.notNegative]
      change ((min n.toFloat.toUInt64.toNat (2 ^ 63 - 1) : ℕ) : ℤ) = c
      rw [settled.read]
      omega

end Double

end Waterfall
