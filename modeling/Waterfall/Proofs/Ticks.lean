import Waterfall.Proofs.Double.Parts
import Waterfall.Proofs.Exact
import Waterfall.Scale

set_option autoImplicit false

namespace Waterfall

namespace Scale

section

variable {first last z : ℤ}

theorem mem_wholeNumbers : z ∈ wholeNumbers first last ↔ first ≤ z ∧ z ≤ last := by
  simp only [wholeNumbers, List.mem_map, List.mem_range]
  constructor
  · rintro ⟨k, less, rfl⟩
    omega
  · rintro ⟨above, below⟩
    exact ⟨(z - first).toNat, by omega, by omega⟩

theorem pairwise_wholeNumbers (first last : ℤ) : (wholeNumbers first last).Pairwise (· < ·) := by
  rw [wholeNumbers, List.pairwise_map]
  exact List.pairwise_lt_range.imp fun less => by omega

theorem length_wholeNumbers (first last : ℤ) :
    (wholeNumbers first last).length = (last - first + 1).toNat := by
  rw [wholeNumbers, List.length_map, List.length_range]

end

def IsNice (step : ℕ) : Prop :=
  ∃ c ∈ [1, 2, 5], ∃ n, step = c * 10 ^ n

theorem pos_and_two_mul_le {c : ℕ} (member : c ∈ [1, 2, 5]) : 0 < c ∧ 2 * c ≤ 10 := by
  revert c
  decide

theorem IsNice.pos {step : ℕ} (nice : IsNice step) : 0 < step := by
  obtain ⟨c, member, n, rfl⟩ := nice
  exact Nat.mul_pos (pos_and_two_mul_le member).1 (by positivity)

theorem IsNice.pow_dvd {step p : ℕ} (nice : IsNice step) (le : 10 ^ p ≤ step) : 10 ^ p ∣ step := by
  obtain ⟨c, member, n, rfl⟩ := nice
  have small : c < 10 := by
    have := pos_and_two_mul_le member
    omega
  have less : 10 ^ p < 10 ^ (n + 1) := by
    rw [pow_succ']
    exact le.trans_lt (Nat.mul_lt_mul_of_pos_right small (by positivity))
  have within : p ≤ n := Nat.lt_succ_iff.1 ((Nat.pow_lt_pow_iff_right (by decide)).1 less)
  exact (pow_dvd_pow 10 within).mul_left c

theorem IsNice.two_mul_le {step p : ℕ} (nice : IsNice step) (less : step < 10 ^ p) : 2 * step ≤ 10 ^ p := by
  obtain ⟨c, member, n, rfl⟩ := nice
  obtain ⟨positive, small⟩ := pos_and_two_mul_le member
  have within : n < p :=
    (Nat.pow_lt_pow_iff_right (by decide)).1 ((Nat.le_mul_of_pos_left _ positive).trans_lt less)
  calc 2 * (c * 10 ^ n) = 2 * c * 10 ^ n := (mul_assoc _ _ _).symm
    _ ≤ 10 * 10 ^ n := Nat.mul_le_mul_right _ small
    _ = 10 ^ (n + 1) := (pow_succ' 10 n).symm
    _ ≤ 10 ^ p := Nat.pow_le_pow_right (by decide) within

theorem isNice_one : IsNice 1 := ⟨1, by decide, 0, rfl⟩

def niceFactor {α : Type} [Scalar α] (fraction : α) : α :=
  (niceFactors.find? fun f => fraction - 1e-9 ≤ f).getD 10

section

variable {x span : ℝ} {count : ℕ}

theorem mem_niceFactors : x ∈ (niceFactors : List ℝ) ↔ x = 1 ∨ x = 2 ∨ x = 5 ∨ x = 10 := by
  have one : @OfNat.ofNat ℝ 1 (Scalar.instOfNat 1) = 1 := Scalar.real_one
  simp only [niceFactors, List.mem_cons, List.not_mem_nil, or_false, one]

theorem niceFactor_mem (x : ℝ) : niceFactor x ∈ (niceFactors : List ℝ) := by
  unfold niceFactor
  cases found : (niceFactors : List ℝ).find? fun f => x - 1e-9 ≤ f with
  | none => exact mem_niceFactors.2 (.inr (.inr (.inr rfl)))
  | some f => exact List.mem_of_find?_eq_some found

theorem one_le_niceFactor (x : ℝ) : 1 ≤ niceFactor x := by
  obtain same | same | same | same := mem_niceFactors.1 (niceFactor_mem x) <;> norm_num [same]

-- The search lets a factor pass that is too small by no more than a billionth.
theorem le_niceFactor (small : x ≤ 10) : x ≤ niceFactor x + 1 / 10 ^ 9 := by
  unfold niceFactor
  cases found : (niceFactors : List ℝ).find? fun f => x - 1e-9 ≤ f with
  | none => exact small.trans (le_add_of_nonneg_right (by positivity))
  | some f =>
    have least := List.find?_some found
    rw [decide_eq_true_iff, Scalar.real_billionth] at least
    exact sub_le_iff_le_add.1 least

theorem niceFactor_eq_two (above : 1 + 1 / 10 ^ 9 < x) (below : x ≤ 2) : niceFactor x = 2 := by
  unfold niceFactor niceFactors
  rw [List.find?_cons_of_neg, List.find?_cons_of_pos]
  · rfl
  · rw [decide_eq_true_iff, Scalar.real_billionth]
    exact (by linarith : x - 1 / 10 ^ 9 ≤ 2)
  · rw [decide_eq_true_iff, Scalar.real_billionth, Scalar.real_one]
    exact (by linarith : ¬ x - 1 / 10 ^ 9 ≤ 1)

noncomputable def decade (x : ℝ) : ℝ := 10 ^ Int.log 10 x

theorem decade_pos (x : ℝ) : 0 < decade x := zpow_pos (by norm_num) _

theorem lt_decade (x : ℝ) : x < 10 * decade x := by
  have next := Int.lt_zpow_succ_log_self (b := 10) (by norm_num) x
  rwa [zpow_add_one₀ (by norm_num), Nat.cast_ofNat, mul_comm] at next

theorem decade_eq {e : ℤ} (above : 10 ^ e ≤ x) (below : x < 10 ^ (e + 1)) :
    decade x = 10 ^ e := by
  have positive : 0 < x := (zpow_pos (by norm_num) e).trans_le above
  have least : e ≤ Int.log 10 x :=
    (Int.zpow_le_iff_le_log (b := 10) (by norm_num) positive).1 (by exact_mod_cast above)
  have most : Int.log 10 x < e + 1 :=
    (Int.lt_zpow_iff_log_lt (b := 10) (by norm_num) positive).1 (by exact_mod_cast below)
  rw [decade, le_antisymm (Int.lt_add_one_iff.1 most) least]

theorem pow_floor_log10 (nonneg : 0 ≤ x) : Scalar.pow 10 (Scalar.floor (Scalar.log10 x)) = decade x := by
  change (10 : ℝ) ^ ((⌊Real.logb 10 x⌋ : ℤ) : ℝ) = 10 ^ Int.log 10 x
  have floored := Real.floor_logb_natCast (b := 10) nonneg
  rw [Nat.cast_ofNat] at floored
  rw [Real.rpow_intCast, floored]

noncomputable def niceRound (x : ℝ) : ℝ := niceFactor (x / decade x) * decade x

-- Ten times a power of ten is once the next one.
theorem exists_niceRound (x : ℝ) : ∃ c ∈ [1, 2, 5], ∃ e : ℤ, niceRound x = (c : ℕ) * 10 ^ e := by
  have next : (10 : ℝ) * decade x = (1 : ℕ) * 10 ^ (Int.log 10 x + 1) := by
    rw [zpow_add_one₀ (by norm_num), Nat.cast_one, one_mul, mul_comm, decade]
  unfold niceRound
  obtain same | same | same | same := mem_niceFactors.1 (niceFactor_mem (x / decade x)) <;> rw [same]
  · exact ⟨1, by decide, _, by rw [Nat.cast_one, decade]⟩
  · exact ⟨2, by decide, _, by rw [Nat.cast_ofNat, decade]⟩
  · exact ⟨5, by decide, _, by rw [Nat.cast_ofNat, decade]⟩
  · exact ⟨1, by decide, _, next⟩

theorem le_niceRound (x : ℝ) : x ≤ niceRound x * (1 + 1 / 10 ^ 9) := by
  have decade_pos := decade_pos x
  have fraction : x / decade x ≤ 10 := (div_le_iff₀ decade_pos).2 (lt_decade x).le
  have least := (div_le_iff₀ decade_pos).1 (le_niceFactor fraction)
  have one := mul_le_mul_of_nonneg_right (one_le_niceFactor (x / decade x)) decade_pos.le
  unfold niceRound
  linarith

theorem niceStep_eq (positive : 0 < span) (count : ℕ) :
    niceStep span count = max (niceRound (span / count)) 1 := by
  have rough : 0 ≤ span / count := div_nonneg positive.le count.cast_nonneg
  have sound : ¬ (span ≤ Scalar.ofNat 0 ∨ Scalar.finite span = false) := by
    rw [not_or, Scalar.real_ofNat, Nat.cast_zero]
    exact ⟨not_le.2 positive, Bool.noConfusion⟩
  rw [niceRound, ← pow_floor_log10 rough, ← Scalar.real_max, ← Scalar.real_one]
  exact if_neg sound

-- Below one the step is one; else the power of ten is a whole number.
theorem max_nice {c : ℕ} (member : c ∈ [1, 2, 5]) (e : ℤ) :
    ∃ step, IsNice step ∧ max ((c : ℝ) * 10 ^ e) 1 = step := by
  obtain ⟨positive, small⟩ := pos_and_two_mul_le member
  obtain ⟨n, rfl⟩ | negative := (lt_or_ge e 0).symm.imp_left Int.eq_ofNat_of_zero_le
  · refine ⟨c * 10 ^ n, ⟨c, member, n, rfl⟩, ?_⟩
    have least : 1 ≤ c * 10 ^ n := Nat.mul_pos positive (by positivity)
    rw [zpow_natCast, max_eq_left (by exact_mod_cast least)]
    push_cast
    rfl
  · refine ⟨1, isNice_one, ?_⟩
    have tenth : (10 : ℝ) ^ e ≤ 10 ^ (-1 : ℤ) := zpow_le_zpow_right₀ (by norm_num) (by omega)
    have small : c ≤ 5 := by omega
    have five : (c : ℝ) ≤ 5 := by exact_mod_cast small
    rw [Nat.cast_one, max_eq_right]
    calc (c : ℝ) * 10 ^ e ≤ 5 * 10 ^ (-1 : ℤ) := by gcongr
      _ ≤ 1 := by norm_num

theorem exists_niceStep (positive : 0 < span) (count : ℕ) :
    ∃ step, IsNice step ∧ niceStep span count = step := by
  obtain ⟨c, member, e, same⟩ := exists_niceRound (span / count)
  rw [niceStep_eq positive, same]
  exact max_nice member e

theorem span_le_niceStep (positive : 0 < span) (counted : 1 ≤ count) :
    span ≤ count * (niceStep span count * (1 + 1 / 10 ^ 9)) := by
  have parts : (0 : ℝ) < count := by exact_mod_cast counted
  rw [niceStep_eq positive, ← div_le_iff₀' parts]
  have step := le_max_left (niceRound (span / count)) 1
  exact (le_niceRound _).trans (mul_le_mul_of_nonneg_right step (by positivity))

-- With more parts the billionths could add up to a whole step.
theorem span_lt_niceStep (positive : 0 < span) (counted : 1 ≤ count) (few : count ≤ 10 ^ 8) :
    span < (count + 1) * niceStep span count := by
  obtain ⟨step, nice, same⟩ := exists_niceStep positive count
  have le := span_le_niceStep positive counted
  have few : (count : ℝ) ≤ 10 ^ 8 := by exact_mod_cast few
  have step_pos : (0 : ℝ) < step := by exact_mod_cast nice.pos
  rw [same] at le ⊢
  nlinarith [mul_le_mul_of_nonneg_right few step_pos.le]

end

section

variable {low high step : ℝ} (positive : 0 < step)

include positive

theorem mem_multiples {v : ℝ} :
    v ∈ (wholeNumbers ⌈low / step⌉ ⌊high / step⌋).map (fun z : ℤ => (z : ℝ) * step) ↔
      low ≤ v ∧ v ≤ high ∧ ∃ z : ℤ, v = z * step := by
  simp only [List.mem_map, mem_wholeNumbers, Int.ceil_le, Int.le_floor, div_le_iff₀ positive,
    le_div_iff₀ positive]
  constructor
  · rintro ⟨z, ⟨above, below⟩, rfl⟩
    exact ⟨above, below, z, rfl⟩
  · rintro ⟨above, below, z, rfl⟩
    exact ⟨z, ⟨above, below⟩, rfl⟩

theorem length_multiples_le {count : ℕ} (wide : high - low < (count + 1) * step) :
    (wholeNumbers ⌈low / step⌉ ⌊high / step⌋).length ≤ count + 1 := by
  have apart : (⌊high / step⌋ - ⌈low / step⌉ : ℝ) < count + 1 :=
    calc (⌊high / step⌋ - ⌈low / step⌉ : ℝ)
        ≤ high / step - low / step := sub_le_sub (Int.floor_le _) (Int.le_ceil _)
      _ < count + 1 := by rwa [← sub_div, div_lt_iff₀ positive]
  have apart : ⌊high / step⌋ - ⌈low / step⌉ < (count : ℤ) + 1 := by exact_mod_cast apart
  rw [length_wholeNumbers]
  omega

end

theorem le_of_double {x : Float} (finite : x.isFinite = true) (small : Double.value x < 2 ^ 63) :
    Double.value x ≤ 2 ^ 63 - 1 := by
  by_contra beyond
  obtain ⟨k, whole⟩ := Double.exists_natCast_of_large finite (by linarith)
  rw [whole] at small beyond
  have next : k + 1 ≤ 2 ^ 63 := by exact_mod_cast small
  have next : (k : ℚ) + 1 ≤ 2 ^ 63 := by exact_mod_cast next
  linarith

section

-- The domain of a scale may be given from either end.
variable {s : Scale ℝ} {low high : ℝ} (ends : s.domain = (low, high) ∨ s.domain = (high, low))
  (ordered : low < high)

include ends ordered

theorem ticks_eq (count : ℕ) :
    ∃ step, IsNice step ∧ niceStep (high - low) (max count 1) = step ∧
      s.ticks count =
        ⟨(wholeNumbers (Scalar.toInt (Scalar.ceil (low / step)))
            (Scalar.toInt (Scalar.floor (high / step)))).map fun z : ℤ => (z : ℝ) * step, step⟩ := by
  obtain ⟨step, nice, same⟩ := exists_niceStep (sub_pos.2 ordered) (max count 1)
  refine ⟨step, nice, same, ?_⟩
  have sorted : (if s.domain.1 ≤ s.domain.2 then s.domain else (s.domain.2, s.domain.1)) = (low, high) := by
    obtain forward | backward := ends
    · rw [forward, if_pos ordered.le]
    · rw [backward, if_neg ordered.not_ge]
  have sound : ¬ ((step : ℝ) ≤ Scalar.ofNat 0 ∨ Scalar.finite (step : ℝ) = false) := by
    rw [not_or, Scalar.real_ofNat, Nat.cast_zero, not_le, Nat.cast_pos]
    exact ⟨nice.pos, Bool.noConfusion⟩
  change niceStep (high - low) (Nat.max count 1) = step at same
  unfold ticks
  simp only [sorted, same, Scalar.real_ofInt]
  exact if_neg sound

theorem pairwise_ticks (count : ℕ) : (s.ticks count).values.Pairwise (· < ·) := by
  obtain ⟨step, nice, -, eq⟩ := ticks_eq ends ordered count
  rw [eq, List.pairwise_map]
  refine (pairwise_wholeNumbers _ _).imp fun less => ?_
  exact mul_lt_mul_of_pos_right (Int.cast_lt.2 less) (Nat.cast_pos.2 nice.pos)

-- Where the places of the ticks are clipped to words, none becomes negative.
theorem exists_multiples (starts : 0 ≤ low) (count : ℕ) :
    ∃ step, IsNice step ∧ (s.ticks count).step = step ∧
      ∀ v ∈ (s.ticks count).values, ∃ k : ℕ, v = (k * step : ℕ) := by
  obtain ⟨step, nice, -, eq⟩ := ticks_eq ends ordered count
  refine ⟨step, nice, congrArg Ticks.step eq, ?_⟩
  rw [eq]
  intro v member
  obtain ⟨z, between, rfl⟩ := List.mem_map.1 member
  have first := (mem_wholeNumbers.1 between).1
  have ceiling : 0 ≤ ⌈low / step⌉ := Int.ceil_nonneg (div_nonneg starts step.cast_nonneg)
  rw [Scalar.real_ceil, Scalar.toInt_intCast] at first
  obtain ⟨k, rfl⟩ := Int.eq_ofNat_of_zero_le (by omega : 0 ≤ z)
  exact ⟨k, by push_cast; rfl⟩

theorem ticks_eq_multiples (low_small : |low| < 2 ^ 63) (high_small : |high| < 2 ^ 63)
    (whole : low ≤ 2 ^ 63 - 1) (count : ℕ) :
    ∃ step, IsNice step ∧ niceStep (high - low) (max count 1) = step ∧
      s.ticks count =
        ⟨(wholeNumbers ⌈low / step⌉ ⌊high / step⌋).map fun z : ℤ => (z : ℝ) * step, step⟩ := by
  obtain ⟨step, nice, same, eq⟩ := ticks_eq ends ordered count
  have one_le : (1 : ℝ) ≤ step := by exact_mod_cast nice.pos
  have positive : (0 : ℝ) < step := one_pos.trans_le one_le
  have shrinks (x : ℝ) : |x / step| ≤ |x| := by
    rw [abs_div, abs_of_pos positive]
    exact div_le_self (abs_nonneg x) one_le
  obtain ⟨low_above, -⟩ := abs_lt.1 ((shrinks low).trans_lt low_small)
  obtain ⟨high_above, high_below⟩ := abs_lt.1 ((shrinks high).trans_lt high_small)
  have low_below : low / step ≤ 2 ^ 63 - 1 := by
    rw [div_le_iff₀ positive]
    exact whole.trans (le_mul_of_one_le_right (by norm_num) one_le)
  rw [Scalar.toInt_ceil low_above.le low_below, Scalar.toInt_floor high_above.le high_below] at eq
  exact ⟨step, nice, same, eq⟩

end

/-- The ticks of a scale are the multiples of a step on its domain. No double lies between `2 ^ 63 - 1` and `2 ^ 63`,
so `double` holds of all doubles. -/
theorem ticks_multiples (s : Scale ℝ) (count : ℕ) {low high : ℝ}
    (ends : s.domain = (low, high) ∨ s.domain = (high, low)) (ordered : low < high)
    (low_small : |low| < 2 ^ 63) (high_small : |high| < 2 ^ 63)
    (double : low ≤ 2 ^ 63 - 1 ∨ ∃ x : Float, x.isFinite = true ∧ (Double.value x : ℝ) = low)
    (counted : 1 ≤ count) (few : count ≤ 10 ^ 8) :
    let t := s.ticks count
    (∃ step, IsNice step ∧ t.step = step) ∧ 1 ≤ t.step ∧ t.values.Pairwise (· < ·) ∧
      (∀ v, v ∈ t.values ↔ low ≤ v ∧ v ≤ high ∧ ∃ z : ℤ, v = z * t.step) ∧
      t.values.length ≤ count + 1 := by
  intro t
  have whole : low ≤ 2 ^ 63 - 1 := by
    obtain whole | ⟨x, finite, rfl⟩ := double
    · exact whole
    · exact_mod_cast le_of_double finite (by exact_mod_cast (abs_lt.1 low_small).2)
  obtain ⟨step, nice, same, eq⟩ := ticks_eq_multiples ends ordered low_small high_small whole count
  have positive : (0 : ℝ) < step := by exact_mod_cast nice.pos
  have wide := span_lt_niceStep (sub_pos.2 ordered) counted few
  rw [max_eq_left counted] at same
  rw [same] at wide
  have step_eq : t.step = step := congrArg Ticks.step eq
  have values_eq := congrArg Ticks.values eq
  refine ⟨⟨step, nice, step_eq⟩, ?_, pairwise_ticks ends ordered count, fun v => ?_, ?_⟩
  · rw [step_eq]
    exact_mod_cast nice.pos
  · rw [step_eq, values_eq]
    exact mem_multiples positive
  · rw [values_eq, List.length_map]
    exact length_multiples_le positive wide

theorem ticks_multiples_from_below :
    let s : Scale ℝ := ⟨(-1500, 12345), (200, 784)⟩
    let t := s.ticks 4
    s.domain = (-1500, 12345) ∧ (-1500 : ℝ) < 12345 ∧ |(-1500 : ℝ)| < 2 ^ 63 ∧ |(12345 : ℝ)| < 2 ^ 63 ∧
      (-1500 : ℝ) ≤ 2 ^ 63 - 1 ∧ 1 ≤ 4 ∧ 4 ≤ 10 ^ 8 ∧
      (∃ step, IsNice step ∧ t.step = step) ∧ 1 ≤ t.step ∧ t.values.Pairwise (· < ·) ∧ 0 ∈ t.values ∧
      t.values.length ≤ 5 := by
  intro s t
  have ordered : (-1500 : ℝ) < 12345 := by norm_num
  have low_small : |(-1500 : ℝ)| < 2 ^ 63 := by norm_num [abs_lt]
  have high_small : |(12345 : ℝ)| < 2 ^ 63 := by norm_num [abs_lt]
  have whole : (-1500 : ℝ) ≤ 2 ^ 63 - 1 := by norm_num
  obtain ⟨nice, one_le, pairwise, multiples, few⟩ :=
    ticks_multiples s 4 (.inl rfl) ordered low_small high_small (.inl whole) (by decide) (by decide)
  have zero : 0 ∈ t.values := (multiples 0).2 ⟨by norm_num, by norm_num, 0, by simp⟩
  exact ⟨rfl, ordered, low_small, high_small, whole, by decide, by decide, nice, one_le, pairwise, zero, few⟩

end Scale

end Waterfall
