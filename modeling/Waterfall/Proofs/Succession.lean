import Waterfall.Proofs.Timings

set_option autoImplicit false

namespace Waterfall

namespace Timing

-- A half of a microsecond has a bit of its own.
theorem thousandth_of_half {n : ℕ} (small : n < 2 ^ 53) (half : n % 1000 = 500) :
    ((Dyadic.nearest n 1).scale 1 1000).value = n / 1000 := by
  have whole := Dyadic.nearest_of_lt small
  generalize Dyadic.nearest n 1 = x at whole ⊢
  have num := Dyadic.num_of_value whole
  have den : 0 < x.den * 1000 := Nat.mul_pos x.den_pos (by norm_num)
  have quotient : ((x.num * 1 : ℕ) : ℚ) / (x.den * 1000 : ℕ) = n / 1000 := by
    have size : (x.den : ℚ) ≠ 0 := by exact_mod_cast x.den_pos.ne'
    rw [num]
    push_cast
    field_simp
  have bits : Binary.log2Quotient (x.num * 1) (x.den * 1000) < 51 := by
    refine Binary.log2Quotient_lt ?_ den ?_
    · rw [num, mul_one]
      exact Nat.mul_pos (by omega) x.den_pos
    · have size : (n : ℚ) < 2 ^ 53 := by exact_mod_cast small
      rw [quotient]
      calc (n : ℚ) / 1000 < 2 ^ 53 / 1000 := by gcongr
        _ < 2 ^ (51 : ℤ) := by norm_num
  rw [← quotient]
  apply Dyadic.nearest_of_dvd den
  generalize Binary.log2Quotient (x.num * 1) (x.den * 1000) = e at bits
  have units : (e - 52).toNat = 0 := by omega
  obtain ⟨k, below⟩ : ∃ k, (-(e - 52)).toNat = k + 1 := ⟨(-(e - 52)).toNat - 1, by omega⟩
  have halves : n = 500 * (2 * (n / 1000) + 1) := by omega
  refine ⟨(2 * (n / 1000) + 1) * 2 ^ k, ?_⟩
  rw [units, below, num]
  conv_lhs => rw [halves]
  ring

theorem toNat_microsOfNanos {n : ℕ} (small : n ≤ 2 ^ 53) :
    (microsOfNanos n).toNat = (n + 500) / 1000 := by
  obtain rfl | small := Nat.eq_or_lt_of_le small
  · decide +kernel
  · have error := abs_le.1 ((Dyadic.nearest n 1).scale_near 1 (d := 1000) (by norm_num))
    rw [Dyadic.nearest_of_lt small] at error
    have narrow : (n : ℚ) / 2 ^ 53 < 1 := by
      rw [div_lt_one (by positivity)]
      exact_mod_cast small
    have parts : (n : ℚ) + 500 = 1000 * ((n + 500) / 1000 : ℕ) + ((n + 500) % 1000 : ℕ) := by
      exact_mod_cast (Nat.div_add_mod (n + 500) 1000).symm
    have most : ((n + 500) % 1000 : ℕ) ≤ (999 : ℚ) := by
      exact_mod_cast (by omega : (n + 500) % 1000 ≤ 999)
    -- The error is less than a thousandth, and only a half is nearer than that to the next one.
    have floor : ((Dyadic.nearest n 1).scale 1 1000).round = (n + 500) / 1000 := by
      rw [Dyadic.round_eq, Nat.floor_eq_iff (by unfold Dyadic.value; positivity)]
      by_cases half : (n + 500) % 1000 = 0
      · rw [thousandth_of_half small (by omega)]
        rw [half] at parts
        push_cast at parts ⊢
        constructor <;> linarith
      · have least : (1 : ℚ) ≤ ((n + 500) % 1000 : ℕ) := by
          exact_mod_cast Nat.one_le_iff_ne_zero.2 half
        push_cast at error
        constructor <;> linarith
    rw [microsOfNanos, Micros.toNat_clip, floor, Micros.limit, UInt64.size]
    omega

-- Twice as far the counts are rounded, but not by much.
theorem toNat_microsOfNanos_le {n : ℕ} (small : n ≤ 2 ^ 54) :
    1000 * (microsOfNanos n).toNat ≤ n + 510 := by
  have size : (n : ℚ) ≤ 2 ^ 54 := by exact_mod_cast small
  have upper := microsOfNanos_upper n
  have bound : (1000 * (microsOfNanos n).toNat : ℚ) ≤ n + 510 := by linarith
  exact_mod_cast bound

theorem offset?_of_pos {origin : Origin} {nanos : UInt64} (known : 0 < nanos) :
    offset? origin nanos = some (microsOfNanos (nanos.toNat - origin.toNat)) :=
  if_neg (UInt64.pos_iff_ne_zero.1 known)

theorem measured?_of_lt {start finish : UInt64} (known : 0 < start) (order : start < finish) :
    measured? start finish = some (atLeastOne (microsOfNanos (finish.toNat - start.toNat))) :=
  if_neg (not_or.2 ⟨UInt64.pos_iff_ne_zero.1 known, UInt64.not_le.2 order⟩)

end Timing

def Origin.Near (origin : Origin) (nanos : UInt64) : Prop :=
  nanos.toNat ≤ origin.toNat + 2 ^ 53 ∧ origin.toNat ≤ nanos.toNat + 2 ^ 53

instance (origin : Origin) (nanos : UInt64) : Decidable (origin.Near nanos) :=
  inferInstanceAs (Decidable (_ ∧ _))

structure Phase.Timed (origin : Origin) (p : Phase) : Prop where
  known : 0 < p.start
  order : p.start < p.finish
  begins : origin.Near p.start
  ends : origin.Near p.finish

namespace Phase.Timed

variable {origin : Origin} {p q : Phase} {total : UInt64}

theorem timing_eq (timed : p.Timed origin) :
    Timing.phase origin total p =
      ⟨Timing.microsOfNanos (p.start.toNat - origin.toNat),
        Timing.atLeastOne (Timing.microsOfNanos (p.finish.toNat - p.start.toNat)), false⟩ := by
  rw [Timing.phase, Timing.offset?_of_pos timed.known, Timing.measured?_of_lt timed.known timed.order]
  rfl

theorem toNat_start (timed : p.Timed origin) :
    (Timing.phase origin total p).start.toNat = (p.start.toNat - origin.toNat + 500) / 1000 := by
  have near := timed.begins.1
  rw [timed.timing_eq, Timing.toNat_microsOfNanos (by omega)]

theorem toNat_duration (timed : p.Timed origin) :
    (Timing.phase origin total p).duration.toNat =
      max (Timing.microsOfNanos (p.finish.toNat - p.start.toNat)).toNat 1 := by
  rw [timed.timing_eq, Timing.toNat_atLeastOne]

theorem order_toNat (timed : p.Timed origin) : p.start.toNat < p.finish.toNat :=
  UInt64.lt_iff_toNat_lt.1 timed.order

-- Each of the two roundings gains half a microsecond at most. A duration that is rounded to nothing
-- becomes a whole one, and then the start is not rounded beyond that of the next phase.
theorem finish_le (timed : p.Timed origin) (next : q.Timed origin) (after : p.finish ≤ q.start)
    (late : origin ≤ p.start) :
    (Timing.phase origin total p).start.toNat + (Timing.phase origin total p).duration.toNat ≤
      (Timing.phase origin total q).start.toNat + 1 := by
  have order := timed.order_toNat
  have ends := timed.ends.1
  rw [UInt64.le_iff_toNat_le] at after late
  rw [timed.toNat_start, next.toNat_start, timed.toNat_duration,
    Timing.toNat_microsOfNanos (by omega)]
  omega

-- The part before the origin is not taken off the duration.
theorem finish_le_of_early (timed : p.Timed origin) (next : q.Timed origin)
    (after : p.finish ≤ q.start) (early : p.start < origin) :
    (Timing.phase origin total p).start.toNat + (Timing.phase origin total p).duration.toNat ≤
      (Timing.phase origin total q).start.toNat + 1 +
        (Timing.microsOfNanos (origin.toNat - p.start.toNat)).toNat := by
  have begins := timed.begins.2
  have ends := timed.ends.1
  rw [UInt64.lt_iff_toNat_lt] at early
  rw [UInt64.le_iff_toNat_le] at after
  have lasts : 1000 * (Timing.microsOfNanos (p.finish.toNat - p.start.toNat)).toNat ≤
      p.finish.toNat - p.start.toNat + 510 := Timing.toNat_microsOfNanos_le (by omega)
  have before : (Timing.microsOfNanos (origin.toNat - p.start.toNat)).toNat =
      (origin.toNat - p.start.toNat + 500) / 1000 := Timing.toNat_microsOfNanos (by omega)
  rw [timed.toNat_start, next.toNat_start, timed.toNat_duration, before]
  omega

end Phase.Timed

namespace Span

variable {d : Document} {i j : Nat} {p q : Phase} {s : Span}

theorem toNat_finish_le (s : Span) :
    s.finish.toNat ≤ s.timing.start.toNat + s.timing.duration.toNat := by
  rw [finish, Micros.toNat_add]
  exact min_le_left _ _

/-- Of two phases one after the other, the first ends at most a microsecond after the second starts, and later only
by the time for which it began before the origin. -/
theorem phase_finish_le (first : d.phases[i]? = some p) (second : d.phases[j]? = some q)
    (timed : p.Timed (.ofDocument d)) (next : q.Timed (.ofDocument d)) (after : p.finish ≤ q.start) :
    ∃ s t,
      (Part.phase i p, s) ∈ d.parts.zip (ofDocument d) ∧
      (Part.phase j q, t) ∈ d.parts.zip (ofDocument d) ∧
      (Origin.ofDocument d ≤ p.start → s.finish.toNat ≤ t.start.toNat + 1) ∧
      s.finish.toNat ≤ t.start.toNat + 1 +
        (Timing.microsOfNanos ((Origin.ofDocument d).toNat - p.start.toNat)).toNat := by
  obtain ⟨s, here⟩ := exists_span (Document.mem_parts_iff.2 (show (Part.phase i p).Of d from first))
  obtain ⟨t, there⟩ := exists_span (Document.mem_parts_iff.2 (show (Part.phase j q).Of d from second))
  have finish := toNat_finish_le s
  have start : t.start = t.timing.start := rfl
  rw [timing_phase here] at finish
  rw [timing_phase there] at start
  refine ⟨s, t, here, there, fun late => ?_, ?_⟩
  · rw [start]
    exact finish.trans (timed.finish_le next after late)
  · rw [start]
    obtain early | late := UInt64.lt_or_le p.start (Origin.ofDocument d)
    · exact finish.trans (timed.finish_le_of_early next after early)
    · exact (finish.trans (timed.finish_le next after late)).trans (Nat.le_add_right _ _)

-- The bound is met: the first phase is given a whole microsecond, and both starts are rounded up.
theorem phase_finish_le_brief :
    let p : Phase := { name := "global", start := 1000600, finish := 1000900 }
    let q : Phase := { name := "project", start := 1000900, finish := 1001000 }
    let d : Document := { start := 1000000, finish := 1001000, phases := [p, q] }
    p.Timed (.ofDocument d) ∧ q.Timed (.ofDocument d) ∧ p.finish ≤ q.start ∧
      ((Part.phase 0 p).timing d).start = 1 ∧ ((Part.phase 0 p).timing d).duration = 1 ∧
      ((Part.phase 1 q).timing d).start = 1 ∧
      ∃ s t,
        (Part.phase 0 p, s) ∈ d.parts.zip (ofDocument d) ∧
        (Part.phase 1 q, t) ∈ d.parts.zip (ofDocument d) ∧
        (Origin.ofDocument d ≤ p.start → s.finish.toNat ≤ t.start.toNat + 1) ∧
        s.finish.toNat ≤ t.start.toNat + 1 +
          (Timing.microsOfNanos ((Origin.ofDocument d).toNat - p.start.toNat)).toNat := by
  intro p q d
  have timed : p.Timed (.ofDocument d) := ⟨by decide, by decide, by decide, by decide⟩
  have next : q.Timed (.ofDocument d) := ⟨by decide, by decide, by decide, by decide⟩
  exact ⟨timed, next, by decide, by decide +kernel, by decide +kernel, by decide +kernel,
    phase_finish_le (d := d) (i := 0) (j := 1) rfl rfl timed next (by decide)⟩

-- The first phase ends before the trace starts, and the second starts before it, too. The first is
-- drawn over two thirds of the second.
theorem phase_overlap :
    let p : Phase := { name := "global", start := 500000, finish := 900000 }
    let q : Phase := { name := "project", start := 900000, finish := 1500000 }
    let d : Document := { spanId := some "root", start := 1000000, finish := 2000000, phases := [p, q] }
    p.Timed (.ofDocument d) ∧ q.Timed (.ofDocument d) ∧ (Origin.ofDocument d).Near d.start ∧
      (Origin.ofDocument d).Near d.finish ∧ p.finish ≤ q.start ∧
      ∃ s t,
        (Part.phase 0 p, s) ∈ d.parts.zip (ofDocument d) ∧
        (Part.phase 1 q, t) ∈ d.parts.zip (ofDocument d) ∧
        s.finish = 400 ∧ t.start = 0 ∧ ¬ s.finish.toNat ≤ t.start.toNat + 1 := by
  intro p q d
  obtain ⟨s, here⟩ := exists_span (Document.mem_parts_iff.2 (show (Part.phase 0 p).Of d from rfl))
  obtain ⟨t, there⟩ := exists_span (Document.mem_parts_iff.2 (show (Part.phase 1 q).Of d from rfl))
  have timed := timing_eq here nofun
  have began : s.start = 0 := (congrArg Timing.start timed).trans (by decide +kernel)
  have lasts : s.duration = 400 := (congrArg Timing.duration timed).trans (by decide +kernel)
  have start : t.start = 0 :=
    (congrArg Timing.start (timing_eq there nofun)).trans (by decide +kernel)
  have finish : s.finish = 400 := by
    rw [Span.finish, began, lasts]
    decide
  refine ⟨⟨by decide, by decide, by decide, by decide⟩,
    ⟨by decide, by decide, by decide, by decide⟩, by decide, by decide, by decide, s, t, here, there,
    finish, start, ?_⟩
  rw [finish, start]
  decide

end Span

end Waterfall
