import Mathlib.Tactic.FieldSimp
import Mathlib.Tactic.Linarith
import Mathlib.Tactic.Ring
import Waterfall.Proofs.Exact
import Waterfall.Proofs.Gestures

set_option autoImplicit false

namespace Waterfall

namespace Scale

structure Forward (s : Scale ℝ) : Prop where
  domain : s.domain.1 < s.domain.2
  range : s.range.1 < s.range.2

theorem forward_base (extent : UInt64) (left right : ℝ) : (base extent left right).Forward where
  domain := by
    have positive : (0 : ℝ) < 1000 := by norm_num
    simp only [base, minWindow, Scalar.real_zero, Scalar.real_max]
    exact positive.trans_le (le_max_right _ _)
  range := by
    simp only [base, Scalar.real_max, Scalar.real_one]
    exact (lt_add_one left).trans_le (le_max_right _ _)

section

variable {s : Scale ℝ}

theorem invert_of_lt (ordered : s.range.1 < s.range.2) (position : ℝ) :
    s.invert position = s.domain.1 +
      (position - s.range.1) / (s.range.2 - s.range.1) * (s.domain.2 - s.domain.1) := by
  rw [invert, if_neg]
  simpa using ordered.ne'

theorem Forward.invert_eq (forward : s.Forward) (position : ℝ) :
    s.invert position = s.domain.1 +
      (position - s.range.1) / (s.range.2 - s.range.1) * (s.domain.2 - s.domain.1) :=
  invert_of_lt forward.range position

theorem Forward.invert_left (forward : s.Forward) : s.invert s.range.1 = s.domain.1 := by
  rw [forward.invert_eq, sub_self, zero_div, zero_mul, add_zero]

theorem Forward.invert_right (forward : s.Forward) : s.invert s.range.2 = s.domain.2 := by
  have apart : s.range.2 - s.range.1 ≠ 0 := sub_ne_zero.2 forward.range.ne'
  rw [forward.invert_eq, div_self apart, one_mul, add_sub_cancel]

theorem Forward.invert_mono (forward : s.Forward) {p q : ℝ} (h : p ≤ q) :
    s.invert p ≤ s.invert q := by
  have window : 0 ≤ s.domain.2 - s.domain.1 := sub_nonneg.2 forward.domain.le
  have room : 0 ≤ s.range.2 - s.range.1 := sub_nonneg.2 forward.range.le
  rw [forward.invert_eq, forward.invert_eq]
  gcongr

theorem Forward.invert_sub (forward : s.Forward) (p q : ℝ) :
    s.invert q - s.invert p =
      (q - p) / (s.range.2 - s.range.1) * (s.domain.2 - s.domain.1) := by
  rw [forward.invert_eq, forward.invert_eq]
  ring

end

end Scale

namespace Zoom

/-- The stretched picture of a range covers the range. -/
structure Covers (z : Zoom ℝ) (range : ℝ × ℝ) : Prop where
  stretched : 1 ≤ z.k
  left : z.k * range.1 + z.x ≤ range.1
  right : range.2 ≤ z.k * range.2 + z.x

section

variable {z : Zoom ℝ} {range : ℝ × ℝ}

theorem covers_identity (range : ℝ × ℝ) : identity.Covers range := by
  constructor <;> simp [identity]

-- The bounds of the shift are those at which the picture meets an end of the range.
theorem covers_constrain (stretched : 1 ≤ z.k) (ordered : range.1 ≤ range.2) :
    (z.constrain range).Covers range := by
  have bounds : range.2 * (1 - z.k) ≤ range.1 * (1 - z.k) :=
    mul_le_mul_of_nonpos_right ordered (sub_nonpos.2 stretched)
  have x_eq : (z.constrain range).x =
      Scalar.clamp z.x (range.2 * (1 - z.k)) (range.1 * (1 - z.k)) := by
    simp only [constrain, Scalar.real_one, Scalar.real_min, Scalar.real_max]
    rw [min_eq_left bounds, max_eq_left bounds]
  have low := Scalar.le_clamp (x := z.x) bounds
  have high := Scalar.clamp_le (x := z.x) bounds
  rw [← x_eq] at low high
  have k_eq : (z.constrain range).k = z.k := rfl
  refine ⟨stretched, ?_, ?_⟩
  · rw [k_eq]
    linarith
  · rw [k_eq]
    linarith

theorem covers_pan (covers : z.Covers range) (ordered : range.1 ≤ range.2) (dx : ℝ) :
    (z.pan dx range).Covers range :=
  covers_constrain (z := ⟨z.k, z.x + dx⟩) covers.stretched ordered

theorem covers_zoomAt {limits : ZoomLimits ℝ} (least : 1 ≤ limits.min)
    (limited : limits.min ≤ limits.max) (ordered : range.1 ≤ range.2) (anchor factor : ℝ) :
    (z.zoomAt anchor factor limits range).Covers range :=
  covers_constrain (least.trans (Scalar.le_clamp limited)) ordered

end

section

variable {z : Zoom ℝ} {base : Scale ℝ}

theorem Covers.rescale_starts (covers : z.Covers base.range) (forward : base.Forward) :
    base.domain.1 ≤ (z.rescale base).domain.1 := by
  have positive : 0 < z.k := one_pos.trans_le covers.stretched
  have inside : base.range.1 ≤ z.invert base.range.1 := by
    rw [invert, le_div_iff₀ positive]
    linarith [covers.left]
  have h := forward.invert_mono inside
  rwa [forward.invert_left] at h

theorem Covers.rescale_ends (covers : z.Covers base.range) (forward : base.Forward) :
    (z.rescale base).domain.2 ≤ base.domain.2 := by
  have positive : 0 < z.k := one_pos.trans_le covers.stretched
  have inside : z.invert base.range.2 ≤ base.range.2 := by
    rw [invert, div_le_iff₀ positive]
    linarith [covers.right]
  have h := forward.invert_mono inside
  rwa [forward.invert_right] at h

theorem rescale_width (forward : base.Forward) (stretched : 0 < z.k) :
    (z.rescale base).domain.2 - (z.rescale base).domain.1 =
      (base.domain.2 - base.domain.1) / z.k := by
  have positive : z.k ≠ 0 := stretched.ne'
  have apart : base.range.2 - base.range.1 ≠ 0 := sub_ne_zero.2 forward.range.ne'
  calc base.invert (z.invert base.range.2) - base.invert (z.invert base.range.1)
      = ((base.range.2 - z.x) / z.k - (base.range.1 - z.x) / z.k) /
          (base.range.2 - base.range.1) * (base.domain.2 - base.domain.1) :=
        forward.invert_sub _ _
    _ = (base.domain.2 - base.domain.1) / z.k := by
      field_simp
      ring

-- Without a stretch there is one shift alone at which the picture covers the range.
theorem Covers.rescale_whole (covers : z.Covers base.range) (forward : base.Forward)
    (whole : z.k = 1) : z.rescale base = base := by
  have unmoved : z.x = 0 := by
    have left := covers.left
    have right := covers.right
    rw [whole] at left right
    linarith
  have still (position : ℝ) : z.invert position = position := by
    rw [invert, whole, unmoved, sub_zero, div_one]
  rw [rescale, still, still, forward.invert_left, forward.invert_right]

end

end Zoom

namespace Controller

structure Framed (c : Controller ℝ) : Prop where
  least : 1 ≤ c.limits.min
  limited : c.limits.min ≤ c.limits.max
  base : c.base = baseScale c.geometry c.extent c.viewport.width
  covers : c.zoom.Covers c.range

/-- What is drawn is a part of the trace, `k` times as large as the whole would be. -/
structure ShowsPart (c : Controller ℝ) : Prop where
  base : c.base = baseScale c.geometry c.extent c.viewport.width
  stretched : 1 ≤ c.zoom.k
  starts : c.base.domain.1 ≤ c.scale.domain.1
  ends : c.scale.domain.2 ≤ c.base.domain.2
  width : c.scale.domain.2 - c.scale.domain.1 = (c.base.domain.2 - c.base.domain.1) / c.zoom.k
  whole : c.zoom.k = 1 → c.scale = c.base

theorem forward_baseScale (g : Geometry ℝ) (extent : UInt64) (width : ℝ) :
    (baseScale g extent width).Forward :=
  Scale.forward_base _ _ _

section

variable {c d : Controller ℝ}

theorem Framed.forward (framed : c.Framed) : c.base.Forward :=
  framed.base ▸ forward_baseScale _ _ _

theorem Framed.of_same (framed : c.Framed) (same : SameBase c d)
    (covers : d.zoom.Covers c.range) : d.Framed := by
  obtain ⟨chart, limits, viewport, extent, base⟩ := same
  constructor
  · exact limits ▸ framed.least
  · exact limits ▸ framed.limited
  · rw [base, framed.base, geometry, geometry, chart, extent, viewport]
  · rw [range, base]
    exact covers

theorem Framed.of_rebuilt (framed : c.Framed) (limits : d.limits = c.limits)
    (base : d.base = baseScale d.geometry d.extent d.viewport.width)
    {z : Zoom ℝ} (stretched : 1 ≤ z.k) (zoom : d.zoom = z.constrain d.range) : d.Framed := by
  have forward : d.base.Forward := base ▸ forward_baseScale _ _ _
  refine ⟨limits ▸ framed.least, limits ▸ framed.limited, base, ?_⟩
  rw [zoom]
  exact Zoom.covers_constrain stretched forward.range.le

theorem Framed.shift (framed : c.Framed) (shifts : Shifts c d) : d.Framed := by
  have ordered : c.range.1 ≤ c.range.2 := framed.forward.range.le
  cases shifts with
  | stays same zoom => exact framed.of_same same (zoom ▸ framed.covers)
  | resets same zoom => exact framed.of_same same (zoom ▸ Zoom.covers_identity c.range)
  | pans dx same zoom =>
    exact framed.of_same same (zoom ▸ Zoom.covers_pan framed.covers ordered dx)
  | zooms x factor _ _ same zoom =>
    exact framed.of_same same
      (zoom ▸ Zoom.covers_zoomAt framed.least framed.limited ordered x factor)
  | loads _ limits _ base zoom =>
    exact framed.of_rebuilt limits base (Zoom.covers_identity c.range).stretched zoom
  | resizes _ limits _ base zoom =>
    exact framed.of_rebuilt limits base framed.covers.stretched zoom

theorem Framed.performAll (framed : c.Framed) (gestures : List (Gesture ℝ)) :
    (c.performAll gestures).Framed := by
  induction gestures generalizing c with
  | nil => exact framed
  | cons g rest ih => exact ih (framed.shift (shifts_perform c g))

theorem Framed.showsPart (framed : c.Framed) : c.ShowsPart where
  base := framed.base
  stretched := framed.covers.stretched
  starts := framed.covers.rescale_starts framed.forward
  ends := framed.covers.rescale_ends framed.forward
  width := Zoom.rescale_width framed.forward (one_pos.trans_le framed.covers.stretched)
  whole := framed.covers.rescale_whole framed.forward

end

theorem framed_new (chart : Chart ℝ) {limits : ZoomLimits ℝ} (interval : ℕ)
    (least : 1 ≤ limits.min) (limited : limits.min ≤ limits.max) :
    (new chart limits interval).Framed :=
  ⟨least, limited, rfl, Zoom.covers_identity _⟩

/-- No gesture moves the trace out of view, and none shows more than the trace. -/
theorem performAll_showsPart (chart : Chart ℝ) (limits : ZoomLimits ℝ) (interval : ℕ)
    (least : 1 ≤ limits.min) (limited : limits.min ≤ limits.max)
    (gestures : List (Gesture ℝ)) :
    ((new chart limits interval).performAll gestures).ShowsPart :=
  ((framed_new chart interval least limited).performAll gestures).showsPart

theorem performAll_showsPart_dragged :
    (1 : ℝ) ≤ 1 ∧ (1 : ℝ) ≤ 100 ∧
      ((new ⟨.standard, Theme.dark.palette, .standard⟩ ⟨1, 100, 1.25⟩ 0).performAll
        [.load 3 5000, .resize ⟨800, 600⟩, .zoomIn, .dragStart 300, .dragTo 500]).ShowsPart := by
  have limited : (1 : ℝ) ≤ 100 := by norm_num
  exact ⟨le_rfl, limited, performAll_showsPart _ ⟨1, 100, 1.25⟩ 0 le_rfl limited _⟩

end Controller

end Waterfall
