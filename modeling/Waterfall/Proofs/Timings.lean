import Waterfall.Proofs.Double.Words
import Waterfall.Proofs.Dyadic
import Waterfall.Proofs.Statuses

set_option autoImplicit false

namespace Waterfall

namespace Timing

theorem toNat_atLeastOne (n : UInt64) : (atLeastOne n).toNat = max n.toNat 1 := by
  unfold atLeastOne
  split
  next zero => simp [zero]
  next other =>
    have : n.toNat ≠ 0 := fun zero => other (UInt64.toNat_inj.1 zero)
    omega

-- Two roundings to 53 bits, and one to the nearest microsecond.
theorem microsOfNanos_upper (n : ℕ) :
    ((microsOfNanos n).toNat : ℚ) ≤ n / 1000 * (1 + 1 / 2 ^ 51) + 1 / 2 := by
  have size : (0 : ℚ) ≤ n := n.cast_nonneg
  have whole := (abs_le.1 (Dyadic.nearest_near n one_pos)).2
  have thousandth := (abs_le.1 ((Dyadic.nearest n 1).scale_near 1 (d := 1000) (by norm_num))).2
  push_cast at whole thousandth
  rw [microsOfNanos, Micros.toNat_clip, Dyadic.round_eq]
  generalize Dyadic.nearest n 1 = x at whole thousandth ⊢
  have nonneg : 0 ≤ (x.scale 1 1000).value + 1 / 2 := by unfold Dyadic.value; positivity
  calc ((min ⌊(x.scale 1 1000).value + 1 / 2⌋₊ Micros.limit : ℕ) : ℚ)
      ≤ ⌊(x.scale 1 1000).value + 1 / 2⌋₊ := by exact_mod_cast min_le_left _ _
    _ ≤ (x.scale 1 1000).value + 1 / 2 := Nat.floor_le nonneg
    _ ≤ n / 1000 * (1 + 1 / 2 ^ 51) + 1 / 2 := by linarith

theorem microsOfNanos_le {n : ℕ} (small : n < 2 ^ 64) : (microsOfNanos n).toNat ≤ 2 ^ 55 := by
  have size : (n : ℚ) < 2 ^ 64 := by exact_mod_cast small
  have bound : ((microsOfNanos n).toNat : ℚ) ≤ 2 ^ 55 :=
    (microsOfNanos_upper n).trans (by linarith)
  exact_mod_cast bound

theorem toNat_offset?_le (origin : Origin) (nanos : UInt64) :
    ((offset? origin nanos).getD 0).toNat ≤ 2 ^ 55 := by
  unfold offset?
  split
  · simp
  · exact microsOfNanos_le (by have := nanos.toNat_lt; omega)

theorem isSome_microsOfMillis?_iff (ms : Float) :
    (microsOfMillis? ms).isSome = true ↔ ms.isFinite = true ∧ 0 ≤ ms := by
  have zero : (0 : Float).isFinite = true := by decide
  have nonneg (finite : ms.isFinite = true) : 0 ≤ ms ↔ 0 ≤ Double.valueOf ms.toModel.unpack :=
    (Double.le_iff_value zero finite).trans (by rfl)
  rw [and_congr_right nonneg]
  change _ ↔ ms.toModel.unpack.isFinite = true ∧ _
  rw [microsOfMillis?, Double.ofFloat_eq]
  generalize ms.toModel.unpack = u
  cases u with
  | notANumber | infinity => simp [Double.binary, Float.Model.UnpackedFloat.isFinite]
  | zero s => simp [Double.binary, Float.Model.UnpackedFloat.isFinite, Double.valueOf]
  | finite s m e pos =>
    have size := Double.magnitude_pos pos e
    cases s <;>
      simp [Double.binary, Double.negative, Float.Model.UnpackedFloat.isFinite, Double.valueOf,
        Double.signed, size.le, size, pos.ne']

end Timing

namespace Span

variable {d : Document} {part : Part} {s : Span}

def timing (s : Span) : Timing := ⟨s.start, s.duration, s.approximate⟩

theorem timing_span (d : Document) (id parent : String) (t : Timing) (part : Part) :
    (part.span d id parent t).timing = t := by
  cases part <;> rfl

theorem timing_eq (here : (part, s) ∈ d.parts.zip (ofDocument d)) (other : part ≠ .root) :
    s.timing = part.timing d := by
  obtain ⟨id, parent, t, rfl, timed⟩ := (shown_of_mem_zip here).shows
  rw [timing_span, timed other]

theorem timing_phase {i : Nat} {p : Phase}
    (here : (Part.phase i p, s) ∈ d.parts.zip (ofDocument d)) :
    s.timing = Timing.phase (.ofDocument d) (Timing.root d).duration p :=
  timing_eq here nofun

end Span

end Waterfall
