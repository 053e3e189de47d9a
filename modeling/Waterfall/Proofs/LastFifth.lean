import Waterfall.Proofs.Coverage
import Waterfall.Proofs.Timings

set_option autoImplicit false

namespace Waterfall

namespace Timing

-- What an evaluation takes of so many microseconds, before it is made a word and at least one.
def fifth (n : ℕ) : ℕ :=
  ((Dyadic.nearest n 1).scale evaluationShare.num evaluationShare.den).floor

theorem evaluationShare_near : 19 / 100 ≤ evaluationShare.value ∧ evaluationShare.value ≤ 21 / 100 := by
  obtain ⟨low, high⟩ := abs_le.1 (Dyadic.nearest_near 1 (d := 5) (by norm_num))
  push_cast at low high
  unfold evaluationShare
  constructor <;> linarith

theorem fifth_between (n : ℕ) : n / 6 ≤ fifth n ∧ fifth n ≤ n / 4 := by
  have size : (0 : ℚ) ≤ n := n.cast_nonneg
  have whole := abs_le.1 (Dyadic.nearest_near n one_pos)
  have product :=
    abs_le.1 ((Dyadic.nearest n 1).scale_near evaluationShare.num evaluationShare.den_pos)
  obtain ⟨share_low, share_high⟩ := evaluationShare_near
  rw [mul_div_assoc, ← evaluationShare.value_eq] at product
  push_cast at whole
  generalize (Dyadic.nearest n 1).value = x at whole product
  have low : x * (19 / 100) ≤ x * evaluationShare.value :=
    mul_le_mul_of_nonneg_left share_low (by linarith)
  have high : x * evaluationShare.value ≤ x * (21 / 100) :=
    mul_le_mul_of_nonneg_left share_high (by linarith)
  rw [fifth, Dyadic.floor_eq, ← Nat.floor_div_eq_div (K := ℚ), ← Nat.floor_div_eq_div (K := ℚ)]
  push_cast
  exact ⟨Nat.floor_le_floor (by linarith [product.1]), Nat.floor_le_floor (by linarith [product.2])⟩

theorem toNat_evaluation_duration (around : Timing) :
    (evaluation around).duration.toNat = max (fifth around.duration.toNat) 1 := by
  have small := around.duration.toNat_lt
  have most := (fifth_between around.duration.toNat).2
  have word : min (fifth around.duration.toNat) Micros.limit = fifth around.duration.toNat := by
    simp only [Micros.limit, UInt64.size]
    omega
  rw [evaluation, toNat_atLeastOne, Micros.toNat_clip, ← fifth, word]

-- However long the phase, its start is early and a sixth of it is left out, so the sum is a word.
theorem evaluation_fits {around : Timing} (early : around.start.toNat ≤ 2 ^ 55)
    (lasts : 1 ≤ around.duration) :
    1 ≤ (evaluation around).duration ∧ (evaluation around).duration ≤ around.duration ∧
      around.start.toNat + (around.duration.toNat - (evaluation around).duration.toNat) < 2 ^ 64 := by
  have small := around.duration.toNat_lt
  have ⟨least, most⟩ := fifth_between around.duration.toNat
  rw [UInt64.le_iff_toNat_le, UInt64.toNat_one] at lasts
  rw [UInt64.le_iff_toNat_le, UInt64.le_iff_toNat_le, UInt64.toNat_one, toNat_evaluation_duration]
  omega

theorem toNat_evaluation_start {around : Timing}
    (fits : around.start.toNat + (around.duration.toNat - (evaluation around).duration.toNat) < 2 ^ 64) :
    (evaluation around).start.toNat =
      around.start.toNat + (around.duration.toNat - (evaluation around).duration.toNat) := by
  generalize before : around.duration.toNat - (evaluation around).duration.toNat = n at fits ⊢
  have start : (evaluation around).start = around.start + .ofNat n := by
    rw [← before]
    rfl
  have offset : (UInt64.ofNat n).toNat = n :=
    UInt64.toNat_ofNat_of_lt' ((Nat.le_add_left n _).trans_lt fits)
  rw [start, UInt64.toNat_add, offset, Nat.mod_eq_of_lt fits]

end Timing

namespace Span

variable {d : Document} {s upper : Span} {i : Nat} {p : Phase} {e : Evaluation}

theorem phase_start_le (here : (Part.phase i p, s) ∈ d.parts.zip (ofDocument d)) :
    s.start.toNat ≤ 2 ^ 55 := by
  have timed : s.start = (Timing.phase (.ofDocument d) (Timing.root d).duration p).start :=
    congrArg Timing.start (timing_phase here)
  rw [timed]
  exact Timing.toNat_offset?_le _ _

theorem timing_evaluation (above : (Part.phase i p, upper) ∈ d.parts.zip (ofDocument d))
    (here : (Part.evaluation i p e, s) ∈ d.parts.zip (ofDocument d)) :
    s.timing = Timing.evaluation upper.timing := by
  rw [timing_eq here nofun, timing_eq above nofun]
  rfl

theorem finish_eq_of_flush {s t : Span} (shorter : s.duration ≤ t.duration)
    (flush : s.start.toNat = t.start.toNat + (t.duration.toNat - s.duration.toNat)) :
    s.finish = t.finish := by
  rw [UInt64.le_iff_toNat_le] at shorter
  apply UInt64.toNat_inj.1
  rw [finish, finish, Micros.toNat_add, Micros.toNat_add, flush, Nat.add_assoc,
    Nat.sub_add_cancel shorter]

/-- The evaluation of a phase lasts at least a microsecond, at most as long as the phase, and ends with it. -/
theorem evaluation_closes_phase (recorded : d.phases[i]? = some p) (evaluated : p.evaluation = some e) :
    ∃ phase evaluation,
      (Part.phase i p, phase) ∈ d.parts.zip (ofDocument d) ∧
      (Part.evaluation i p e, evaluation) ∈ d.parts.zip (ofDocument d) ∧
      evaluation.parent = some phase.id ∧
      phase.start.toNat + (phase.duration.toNat - evaluation.duration.toNat) < 2 ^ 64 ∧
      evaluation.start.toNat =
        phase.start.toNat + (phase.duration.toNat - evaluation.duration.toNat) ∧
      1 ≤ evaluation.duration ∧ evaluation.duration ≤ phase.duration ∧
      phase.start ≤ evaluation.start ∧ evaluation.finish = phase.finish := by
  obtain ⟨s, here⟩ := exists_span
    (Document.mem_parts_iff.2 (show (Part.evaluation i p e).Of d from ⟨recorded, evaluated⟩))
  obtain ⟨upper, above, parent⟩ := exists_upper_of_mem_zip here rfl
  have timed := timing_evaluation above here
  have lasts : 1 ≤ upper.timing.duration := one_le_duration (List.of_mem_zip above).2
  obtain ⟨least, most, fits⟩ := Timing.evaluation_fits (phase_start_le above) lasts
  have start := Timing.toNat_evaluation_start fits
  rw [← timed] at least most fits start
  refine ⟨upper, s, above, here, parent, fits, start, least, most, ?_, finish_eq_of_flush most start⟩
  rw [UInt64.le_iff_toNat_le]
  exact start ▸ Nat.le_add_right _ _

-- The phase starts as late as it can, and the duration reported for it is as long as it can be.
theorem evaluation_closes_phase_saturated :
    let phase : Phase :=
      { start := 18446744073709551615, durationMs := some 1e300, evaluation := some {} }
    let d : Document := { start := 1, phases := [phase] }
    d.phases[0]? = some phase ∧ phase.evaluation = some {} ∧
      ((Part.phase 0 phase).timing d).start = 18446744073709552 ∧
      ((Part.phase 0 phase).timing d).duration = 18446744073709551615 ∧
      ∃ upper s,
        (Part.phase 0 phase, upper) ∈ d.parts.zip (ofDocument d) ∧
        (Part.evaluation 0 phase {}, s) ∈ d.parts.zip (ofDocument d) ∧
        s.parent = some upper.id ∧
        upper.start.toNat + (upper.duration.toNat - s.duration.toNat) < 2 ^ 64 ∧
        s.start.toNat = upper.start.toNat + (upper.duration.toNat - s.duration.toNat) ∧
        1 ≤ s.duration ∧ s.duration ≤ upper.duration ∧
        upper.start ≤ s.start ∧ s.finish = upper.finish := by
  intro phase d
  exact ⟨rfl, rfl, by decide +kernel, by decide +kernel,
    evaluation_closes_phase (d := d) (i := 0) (p := phase) (e := {}) rfl rfl⟩

end Span

end Waterfall
