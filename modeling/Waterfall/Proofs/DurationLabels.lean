import Mathlib
import Waterfall.Label
import Waterfall.Proofs.Numerals

set_option autoImplicit false

namespace Waterfall.Label

def unitMicros? : List Char → Option ℕ
  | ['µ', 's'] => some 1
  | ['m', 's'] => some 1000
  | _ => none

/-- The microseconds that a label stands for: a numeral with one of two units. -/
def micros? (s : String) : Option ℚ :=
  let (whole, rest) := Numeral.digits s.toList
  let (fraction, unit) := Numeral.fractionOf rest
  if whole = [] then none
  else (unitMicros? unit).map fun unit =>
    Numeral.ofDigits (whole ++ fraction.getD []) / 10 ^ (fraction.getD []).length * unit

section

variable {s : String} {k : ℕ}

theorem starts_of_unit {unit : List Char} (named : unitMicros? unit = some k) :
    (∀ c ∈ unit.head?, Numeral.digit? c = none) ∧ Numeral.fractionOf unit = (none, unit) := by
  unfold unitMicros? at named
  split at named
  · exact ⟨by rintro c ⟨⟩; rfl, rfl⟩
  · exact ⟨by rintro c ⟨⟩; rfl, rfl⟩
  · cases named

theorem micros?_whole (n : ℕ) (unit : List Char) (named : unitMicros? unit = some k)
    (text : s.toList = (toString n).toList ++ unit) : micros? s = some ((n * k : ℕ) : ℚ) := by
  obtain ⟨stop, no_point⟩ := starts_of_unit named
  simp only [micros?, text, Numeral.digits_toString n stop, no_point, named]
  simp [Numeral.ofDigits_digitsOf, Numeral.digitsOf_ne_nil]

theorem micros?_point (n : ℕ) {d : ℕ} (digit : d < 10) (unit : List Char)
    (named : unitMicros? unit = some k)
    (text : s.toList = (toString n).toList ++ '.' :: ((toString d).toList ++ unit)) :
    micros? s = some ((10 * n + d : ℕ) / 10 * (k : ℚ)) := by
  obtain ⟨stop, -⟩ := starts_of_unit named
  have point : ∀ c ∈ ('.' :: ((toString d).toList ++ unit)).head?, Numeral.digit? c = none := by
    rintro c ⟨⟩
    rfl
  simp only [micros?, text, Numeral.digits_toString n point, Numeral.fractionOf,
    Numeral.digits_toString d stop, named]
  simp [Numeral.ofDigits_append, Numeral.ofDigits_digitsOf, Numeral.length_digitsOf_of_lt digit,
    Numeral.digitsOf_ne_nil]

end

variable {m : UInt64} {label : String}

theorem exists_sum? {a b : UInt64} (fits : a.toNat + b.toNat < UInt64.size) :
    ∃ c, sum? a b = some c ∧ c.toNat = a.toNat + b.toNat :=
  ⟨a + b, if_pos fits, (UInt64.toNat_add a b).trans (Nat.mod_eq_of_lt fits)⟩

theorem sum?_eq_none {a b : UInt64} (exceeds : ¬ a.toNat + b.toNat < UInt64.size) : sum? a b = none :=
  if_neg exceeds

theorem duration?_eq (m : UInt64) :
    duration? m =
      if m.toNat < 1000 then some (toString m.toNat ++ "µs")
      else if m.toNat + 50 < 10000 then
        some (toString ((m.toNat + 50) / 100 / 10) ++ "." ++ toString ((m.toNat + 50) / 100 % 10) ++ "ms")
      else if m.toNat + 500 < 2 ^ 64 then some (toString ((m.toNat + 500) / 1000) ++ "ms")
      else none := by
  by_cases below : m.toNat < 1000
  · rw [if_pos below, duration?, if_pos (UInt64.lt_iff_toNat_lt.2 below)]
    rfl
  rw [if_neg below, duration?, if_neg (UInt64.lt_iff_toNat_lt.not.2 below)]
  by_cases fifty : m.toNat + 50 < 2 ^ 64
  · obtain ⟨a, first, value⟩ := exists_sum? (b := 50) fifty
    have tenths : (a / 100).toNat = (m.toNat + 50) / 100 := by rw [UInt64.toNat_div, value]; rfl
    have fine : a / 100 < 100 ↔ m.toNat + 50 < 10000 := by
      rw [UInt64.lt_iff_toNat_lt, tenths]
      exact Nat.div_lt_iff_lt_mul (by decide)
    simp only [first, Option.bind_eq_bind, Option.bind_some, fine]
    split
    next => rw [← tenths]; rfl
    next =>
      by_cases fits : m.toNat + 500 < 2 ^ 64
      · obtain ⟨b, second, value⟩ := exists_sum? (b := 500) fits
        have millis : (b / 1000).toNat = (m.toNat + 500) / 1000 := by rw [UInt64.toNat_div, value]; rfl
        rw [if_pos fits, second, ← millis]
        rfl
      · rw [if_neg fits, sum?_eq_none (b := 500) fits]
        rfl
  · rw [sum?_eq_none (b := 50) fifty, if_neg (by omega), if_neg (by omega)]
    rfl

def said (m : ℕ) : ℕ :=
  if m < 1000 then m
  else if m + 50 < 10000 then (m + 50) / 100 * 100
  else (m + 500) / 1000 * 1000

theorem said_le_said {m n : ℕ} (le : m ≤ n) : said m ≤ said n := by
  unfold said
  split_ifs <;> omega

theorem isSome_duration?_iff : (duration? m).isSome ↔ m.toNat + 500 < 2 ^ 64 := by
  rw [duration?_eq]
  split_ifs with small tenths fits
  · exact iff_of_true rfl (by omega)
  · exact iff_of_true rfl (by omega)
  · exact iff_of_true rfl fits
  · exact iff_of_false Bool.false_ne_true fits

theorem micros?_of_duration? (shown : duration? m = some label) :
    micros? label = some (said m.toNat : ℚ) := by
  rw [duration?_eq] at shown
  rw [said]
  split_ifs at shown ⊢ <;> obtain rfl := Option.some.inj shown
  · exact (micros?_whole m.toNat ['µ', 's'] rfl (by simp)).trans (by simp)
  · generalize (m.toNat + 50) / 100 = tenths
    rw [micros?_point (tenths / 10) (Nat.mod_lt tenths (by decide)) ['m', 's'] rfl (by simp),
      Nat.div_add_mod]
    congr 1
    push_cast
    ring
  · generalize (m.toNat + 500) / 1000 = millis
    exact (micros?_whole millis ['m', 's'] rfl (by simp)).trans (by simp)

theorem lt_of_point (shown : duration? m = some label) (point : '.' ∈ label.toList) :
    m.toNat < 10000 := by
  have no_point {n : ℕ} {unit : String} (h : '.' ∉ unit.toList) :
      '.' ∉ (toString n ++ unit).toList := by
    rw [String.toList_append, List.mem_append]
    rintro (digit | last)
    · exact absurd (isDigit_of_mem_toString digit) (by decide)
    · exact h last
  rw [duration?_eq] at shown
  split_ifs at shown with small tenths <;> obtain rfl := Option.some.inj shown
  · exact absurd point (no_point (by simp))
  · omega
  · exact absurd point (no_point (by simp))

/-- So many microseconds are as good as exact for a label. -/
structure Near (m : UInt64) (label : String) (v : ℚ) : Prop where
  exact : m < 1000 → v = m.toNat
  tenth : '.' ∈ label.toList ∨ m < 10000 → |v - m.toNat| ≤ 50
  whole : |v - m.toNat| ≤ 500

theorem abs_sub_le_of_nat {a b k : ℕ} (above : a ≤ b + k) (below : b ≤ a + k) :
    |(a : ℚ) - b| ≤ k := by
  rw [abs_sub_le_iff, sub_le_iff_le_add', sub_le_iff_le_add']
  constructor
  · exact_mod_cast above
  · exact_mod_cast below

theorem near_said (shown : duration? m = some label) : Near m label (said m.toNat) where
  exact below := by
    have below : m.toNat < 1000 := UInt64.lt_iff_toNat_lt.1 below
    rw [said, if_pos below]
  tenth fine := by
    have small : m.toNat < 10000 := fine.elim (lt_of_point shown) UInt64.lt_iff_toNat_lt.1
    exact_mod_cast abs_sub_le_of_nat (k := 50) (by unfold said; split_ifs <;> omega)
      (by unfold said; split_ifs <;> omega)
  whole := by
    exact_mod_cast abs_sub_le_of_nat (k := 500) (by unfold said; split_ifs <;> omega)
      (by unfold said; split_ifs <;> omega)

/-- All durations but the last 500 have a label, which stands for nearly as much and for no more than that of a
longer duration. -/
theorem duration?_near (m : UInt64) :
    ((duration? m).isSome ↔ m.toNat + 500 < 2 ^ 64) ∧
      ∀ label, duration? m = some label → ∃ v, micros? label = some v ∧ Near m label v ∧
        ∀ n label', m ≤ n → duration? n = some label' → ∃ w, micros? label' = some w ∧ v ≤ w := by
  refine ⟨isSome_duration?_iff, fun label shown => ?_⟩
  refine ⟨_, micros?_of_duration? shown, near_said shown, fun n label' le shown' => ?_⟩
  refine ⟨_, micros?_of_duration? shown', ?_⟩
  exact_mod_cast said_le_said (UInt64.le_iff_toNat_le.1 le)

theorem duration?_longest :
    duration? 18446744073709551615 = none ∧ duration? 18446744073709551116 = none ∧
      duration? 18446744073709551115 = some "18446744073709551ms" := by
  decide +kernel

end Waterfall.Label
