import Waterfall.Proofs.DurationLabels
import Waterfall.Proofs.Ticks

set_option autoImplicit false

namespace Waterfall

namespace Decimal

theorem ofDigits_zeros (n : ℕ) : Numeral.ofDigits (List.replicate n 0) = 0 := by
  induction n with
  | zero => rfl
  | succ n ih => rw [List.replicate_succ', Numeral.ofDigits_append, ih]; rfl

theorem exists_point (n : ℕ) {places : ℕ} (split : places ≠ 0) :
    ∃ whole fraction : List Char, (point n places).toList = whole ++ '.' :: fraction ∧
      (∀ c ∈ whole ++ fraction, c.isDigit) ∧ whole ≠ [] ∧ fraction.length = places ∧
      Numeral.ofDigits ((whole ++ fraction).map fun c => c.toNat - '0'.toNat) = n := by
  let ds := (zeros (places + 1 - (toString n).length) ++ toString n).toList
  have chars : ds = List.replicate (places + 1 - (Nat.toDigits 10 n).length) '0' ++ Nat.toDigits 10 n := by
    simp [ds, zeros, ← String.length_toList]
  have long : places + 1 ≤ ds.length := by
    rw [chars, List.length_append, List.length_replicate]
    omega
  refine ⟨ds.take (ds.length - places), ds.drop (ds.length - places), ?_, ?_, ?_, ?_, ?_⟩
  · rw [point, if_neg split]
    simp [ds, ← String.length_toList]
  · rw [List.take_append_drop, chars]
    intro c member
    obtain leading | digit := List.mem_append.1 member
    · rw [List.eq_of_mem_replicate leading]
      rfl
    · exact Nat.isDigit_of_mem_toDigits (by decide) (by decide) digit
  · rw [← List.length_pos_iff, List.length_take]
    omega
  · rw [List.length_drop]
    omega
  · rw [List.take_append_drop, chars, List.map_append, List.map_replicate, Numeral.ofDigits_append]
    change _ * Numeral.ofDigits (List.replicate _ 0) + Numeral.ofDigits (Numeral.digitsOf n) = n
    rw [ofDigits_zeros, Numeral.ofDigits_digitsOf, mul_zero, zero_add]

end Decimal

namespace Label

/-- How many decimals a label has, and how many microseconds its unit is. -/
def form? (s : String) : Option (ℕ × ℕ) :=
  let (_, rest) := Numeral.digits s.toList
  let (fraction, unit) := Numeral.fractionOf rest
  (unitMicros? unit).map fun unit => ((fraction.getD []).length, unit)

theorem read_point (n places : ℕ) {k : ℕ} (unit : String) (named : unitMicros? unit.toList = some k) :
    form? (Decimal.point n places ++ unit) = some (places, k) ∧
      micros? (Decimal.point n places ++ unit) = some ((n : ℚ) / 10 ^ places * k) := by
  obtain ⟨stop, no_point⟩ := starts_of_unit named
  by_cases whole : places = 0
  · subst whole
    rw [show Decimal.point n 0 = toString n from rfl]
    simp only [form?, micros?, String.toList_append, Numeral.digits_toString n stop, no_point, named]
    simp [Numeral.ofDigits_digitsOf, Numeral.digitsOf_ne_nil]
  · obtain ⟨before, after, text, digits, some_before, length, value⟩ := Decimal.exists_point n whole
    have point : ∀ c ∈ ('.' :: (after ++ unit.toList)).head?, Numeral.digit? c = none := by
      rintro c ⟨⟩
      rfl
    have digits_before := fun c member => digits c (List.mem_append_left after member)
    have digits_after := fun c member => digits c (List.mem_append_right before member)
    simp only [form?, micros?, String.toList_append, text, List.append_assoc, List.cons_append,
      Numeral.digits_append digits_before point, Numeral.fractionOf,
      Numeral.digits_append digits_after stop, named, Option.getD_some, ← List.map_append, value]
    simp [length, some_before]

def formOf (step : ℕ) : ℕ × ℕ :=
  if step < 100 then (0, 1) else if step < 1000 then (1, 1000) else (0, 1000)

theorem decimals_eq {x : ℝ} {n places : ℕ} (whole : x * 10 ^ places = n) :
    decimals places x = Decimal.point n places := by
  have nearest : Scalar.units places x = n := by
    change Scalar.nearestEven (x * 10 ^ places) = n
    rw [whole, Scalar.nearestEven_natCast]
  have finite : Scalar.finite x = true := rfl
  rw [decimals, if_pos finite, nearest]

theorem quarter_le_logb_two : 1 / 4 ≤ Real.logb 10 2 := by
  have sixteen : Real.logb 10 10 ≤ Real.logb 10 (2 ^ 4) :=
    Real.logb_le_logb_of_le (by norm_num) (by norm_num) (by norm_num)
  rw [Real.logb_self_eq_one (by norm_num), Real.logb_pow] at sixteen
  push_cast at sixteen
  linarith

-- Less than one by half or more, so that the logarithm stays clear of the tolerance.
theorem toWord_ceil_log10 {x : ℝ} (tenth : 1 / 10 ≤ x) (half : x ≤ 1 / 2) :
    Scalar.toWord (Scalar.ceil (-Scalar.log10 x - 1e-9)) = 1 := by
  have positive : 0 < x := lt_of_lt_of_le (by norm_num) tenth
  have low : Real.logb 10 2 ≤ Real.logb 10 x⁻¹ := by
    refine Real.logb_le_logb_of_le (by norm_num) (by norm_num) ?_
    rw [le_inv_comm₀ two_pos positive]
    linarith
  have high : Real.logb 10 x⁻¹ ≤ Real.logb 10 10 := by
    refine Real.logb_le_logb_of_le (by norm_num) (by positivity) ?_
    rw [inv_le_comm₀ positive (by norm_num)]
    linarith
  rw [Real.logb_self_eq_one (by norm_num)] at high
  rw [Real.logb_inv] at low high
  have ceiling : ⌈-Real.logb 10 x - 1 / 10 ^ 9⌉₊ = 1 := by
    rw [Nat.ceil_eq_iff one_ne_zero]
    constructor
    · norm_num
      linarith [quarter_le_logb_two]
    · norm_num
      linarith
  rw [Scalar.real_billionth, Scalar.toWord_ceil]
  change min ⌈-Real.logb 10 x - 1 / 10 ^ 9⌉₊ (2 ^ 64 - 1) = 1
  rw [ceiling]
  rfl

section

variable {step : ℕ} (nice : Scale.IsNice step)

include nice

theorem tickPlaces_eq (above : 100 ≤ step) : tickPlaces ((step : ℝ) / 1000) = (formOf step).1 := by
  have unit : (Scalar.ofNat 1 : ℝ) ≤ step / 1000 ↔ 1000 ≤ step := by
    rw [Scalar.real_ofNat, Nat.cast_one, one_le_div (by norm_num)]
    exact_mod_cast Iff.rfl
  unfold tickPlaces formOf
  rw [if_neg above.not_gt]
  split
  next whole => rw [if_neg (unit.1 whole).not_gt]
  next part =>
    have less : step < 1000 := not_le.1 (mt unit.2 part)
    have tenth : 1 / 10 ≤ (step : ℝ) / 1000 := by
      rw [le_div_iff₀ (by norm_num)]
      have : (100 : ℝ) ≤ step := by exact_mod_cast above
      linarith
    have half : (step : ℝ) / 1000 ≤ 1 / 2 := by
      rw [div_le_iff₀ (by norm_num)]
      have : (2 * step : ℝ) ≤ 1000 := by exact_mod_cast nice.two_mul_le (p := 3) less
      linarith
    rw [if_pos less, toWord_ceil_log10 tenth half]
    rfl

-- The step, and so each of its multiples, is a whole number of what a label counts in.
theorem exists_units (k : ℕ) :
    ∃ n : ℕ, n * (formOf step).2 = k * step * 10 ^ (formOf step).1 := by
  unfold formOf
  split
  next => exact ⟨k * step, by ring⟩
  next above =>
    split
    next =>
      obtain ⟨q, rfl⟩ := nice.pow_dvd (p := 2) (not_lt.1 above)
      exact ⟨k * q, by ring⟩
    next beyond =>
      obtain ⟨q, rfl⟩ := nice.pow_dvd (p := 3) (not_lt.1 beyond)
      exact ⟨k * q, by ring⟩

theorem tick_eq (k : ℕ) :
    ∃ (n : ℕ) (unit : String), unitMicros? unit.toList = some (formOf step).2 ∧
      n * (formOf step).2 = k * step * 10 ^ (formOf step).1 ∧
      tick ((k * step : ℕ) : ℝ) step = Decimal.point n (formOf step).1 ++ unit := by
  obtain ⟨n, count⟩ := exists_units nice k
  have shown : Scalar.positive ((k * step : ℕ) : ℝ) = (k * step : ℕ) := by
    rw [Scalar.real_positive, max_eq_left (Nat.cast_nonneg _)]
  have count_real : (n : ℝ) * (formOf step).2 = (k * step : ℕ) * 10 ^ (formOf step).1 := by
    exact_mod_cast count
  have small : (step : ℝ) < Scalar.ofNat 100 ↔ step < 100 := Nat.cast_lt
  unfold tick
  simp only [shown]
  split
  next less =>
    have form : formOf step = (0, 1) := if_pos (small.1 less)
    rw [form] at count count_real ⊢
    have whole : ((k * step : ℕ) : ℝ) * 10 ^ 0 = n := by rw [← count_real, Nat.cast_one, mul_one]
    refine ⟨n, "µs", by rfl, count, ?_⟩
    rw [decimals_eq whole]
  next notLess =>
    have above : 100 ≤ step := not_lt.1 (mt small.2 notLess)
    have unit : (formOf step).2 = 1000 := by
      unfold formOf
      rw [if_neg above.not_gt]
      split <;> rfl
    have whole : ((k * step : ℕ) : ℝ) / 1000 * 10 ^ (formOf step).1 = n := by
      rw [div_mul_eq_mul_div, ← count_real, unit]
      exact mul_div_cancel_right₀ _ (by norm_num)
    refine ⟨n, "ms", by rw [unit]; rfl, count, ?_⟩
    rw [tickPlaces_eq nice above, ← decimals_eq whole]

theorem read_tick (k : ℕ) :
    form? (tick ((k * step : ℕ) : ℝ) step) = some (formOf step) ∧
      micros? (tick ((k * step : ℕ) : ℝ) step) = some ((k * step : ℕ) : ℚ) := by
  obtain ⟨n, unit, named, count, text⟩ := tick_eq nice k
  obtain ⟨form, micros⟩ := read_point n (formOf step).1 unit named
  have count_rat : (n : ℚ) * (formOf step).2 = (k * step : ℕ) * 10 ^ (formOf step).1 := by
    exact_mod_cast count
  rw [text]
  refine ⟨form, micros.trans (congrArg some ?_)⟩
  rw [div_mul_eq_mul_div, count_rat, mul_div_cancel_right₀ _ (by positivity)]

end

/-- The labels of an axis differ from each other, are of one form, and each stands for exactly its tick. -/
theorem tick_labels (s : Scale ℝ) (count : ℕ) {low high : ℝ}
    (ends : s.domain = (low, high) ∨ s.domain = (high, low)) (ordered : low < high) (starts : 0 ≤ low) :
    let t := s.ticks count
    (t.values.map fun v => tick v t.step).Nodup ∧
      (∃ form, ∀ v ∈ t.values, form? (tick v t.step) = some form) ∧
      ∀ v ∈ t.values, ∃ q, micros? (tick v t.step) = some q ∧ (q : ℝ) = v := by
  intro t
  obtain ⟨step, nice, eq, multiples⟩ := Scale.exists_multiples ends ordered starts count
  have reads : ∀ v ∈ t.values, ∃ q, micros? (tick v t.step) = some q ∧ (q : ℝ) = v := by
    intro v member
    obtain ⟨k, rfl⟩ := multiples v member
    exact ⟨_, eq ▸ (read_tick nice k).2, Rat.cast_natCast _⟩
  refine ⟨?_, ⟨formOf step, fun v member => ?_⟩, reads⟩
  · -- Two ticks with one label would both be what it stands for.
    refine List.Nodup.map_on ?_ ((Scale.pairwise_ticks ends ordered count).imp ne_of_lt)
    intro v member w member' same
    obtain ⟨q, read, rfl⟩ := reads v member
    obtain ⟨q', read', rfl⟩ := reads w member'
    rw [same, read', Option.some_inj] at read
    rw [read]
  · obtain ⟨k, rfl⟩ := multiples v member
    exact eq ▸ (read_tick nice k).1

theorem tick_labels_tenths :
    let s : Scale ℝ := ⟨(150, 1250), (200, 784)⟩
    let t := s.ticks 6
    s.domain = (150, 1250) ∧ (150 : ℝ) < 1250 ∧ (0 : ℝ) ≤ 150 ∧
      200 ∈ t.values ∧ tick 200 t.step = "0.2ms" ∧
      (t.values.map fun v => tick v t.step).Nodup ∧
      (∃ form, ∀ v ∈ t.values, form? (tick v t.step) = some form) ∧
      ∀ v ∈ t.values, ∃ q, micros? (tick v t.step) = some q ∧ (q : ℝ) = v := by
  intro s t
  have ordered : (150 : ℝ) < 1250 := by norm_num
  have starts : (0 : ℝ) ≤ 150 := by norm_num
  obtain ⟨step, nice, same, ticks⟩ := Scale.ticks_eq_multiples (s := s) (.inl rfl) ordered
    (by norm_num [abs_lt]) (by norm_num [abs_lt]) (by norm_num) 6
  obtain rfl : step = 200 := by
    have decade : Scale.decade ((1250 - 150) / (max 6 1 : ℕ)) = 10 ^ (2 : ℤ) :=
      Scale.decade_eq (by norm_num) (by norm_num)
    rw [Scale.niceStep_eq (by norm_num), Scale.niceRound, decade,
      Scale.niceFactor_eq_two (by norm_num) (by norm_num)] at same
    have value : (200 : ℝ) = step := by rw [← same]; norm_num
    exact_mod_cast value.symm
  have listed : (200 : ℝ) ∈ t.values := by
    rw [show t = _ from ticks]
    exact (Scale.mem_multiples (by norm_num)).2 ⟨by norm_num, by norm_num, 1, by norm_num⟩
  have label : tick 200 t.step = "0.2ms" := by
    have value : Scalar.positive (200 : ℝ) = (200 : ℕ) := by
      rw [Scalar.real_positive, max_eq_left (by norm_num), Nat.cast_ofNat]
    have shown : decimals 1 ((200 : ℕ) / 1000 : ℝ) = Decimal.point 2 1 := decimals_eq (by norm_num)
    rw [show t.step = (200 : ℕ) from congrArg Ticks.step ticks]
    unfold tick
    split
    next less => exact absurd less (by norm_num)
    next =>
      change decimals (tickPlaces ((200 : ℕ) / 1000 : ℝ)) (Scalar.positive 200 / 1000) ++ "ms" = _
      rw [tickPlaces_eq nice (by decide), value]
      exact congrArg (· ++ "ms") shown
  exact ⟨rfl, ordered, starts, listed, label, tick_labels s 6 (.inl rfl) ordered starts⟩
end Label

end Waterfall
