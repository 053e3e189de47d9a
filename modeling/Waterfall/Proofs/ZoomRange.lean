import Waterfall.Proofs.Double.Arithmetic
import Waterfall.Proofs.Limits

set_option autoImplicit false

namespace Waterfall

/-- Limits in order, at least one and not infinite. -/
structure ZoomLimits.Sound (limits : ZoomLimits Float) : Prop where
  least : 1 ≤ limits.min
  ordered : limits.min ≤ limits.max
  finite_min : limits.min.isFinite = true
  finite_max : limits.max.isFinite = true

namespace Controller

open Scalar (Ordered)

theorem k_zoomAt {α : Type} [Scalar α] (c : Controller α) (x factor : α) :
    (c.zoomAt x factor).1.zoom.k = c.zoom.k ∨
      Scalar.finite factor = true ∧ ¬ factor ≤ 0 ∧
        (c.zoomAt x factor).1.zoom.k = Scalar.clamp (c.zoom.k * factor) c.limits.min c.limits.max := by
  unfold zoomAt
  split
  next => exact .inl rfl
  next sound =>
    rw [not_or, Bool.not_eq_false] at sound
    unfold setZoom
    split
    next => exact .inl rfl
    next => exact .inr ⟨sound.1, sound.2, rfl⟩

structure ZoomedWithin (c : Controller Float) : Prop where
  finite : c.zoom.k.isFinite = true
  stretched : 1 ≤ c.zoom.k
  most : c.zoom.k ≤ c.limits.max
  least : c.limits.min ≤ c.zoom.k ∨ c.zoom.k = 1

section

variable {c d : Controller Float}

theorem ZoomedWithin.of_k (within : c.ZoomedWithin) (limits : d.limits = c.limits)
    (zoom : d.zoom.k = c.zoom.k) : d.ZoomedWithin where
  finite := by rw [zoom]; exact within.finite
  stretched := by rw [zoom]; exact within.stretched
  most := by rw [zoom, limits]; exact within.most
  least := by rw [zoom, limits]; exact within.least

variable (sound : c.limits.Sound)

include sound

theorem zoomedWithin_of_identity (limits : d.limits = c.limits) (zoom : d.zoom.k = 1) : d.ZoomedWithin where
  finite := by rw [zoom]; decide
  stretched := by rw [zoom]; decide
  most := by rw [zoom, limits]; exact Ordered.le_trans sound.least sound.ordered
  least := .inr zoom

theorem ZoomedWithin.of_clamp (within : c.ZoomedWithin) (limits : d.limits = c.limits) {factor : Float}
    (finite : factor.isFinite = true)
    (zoom : d.zoom.k = Scalar.clamp (c.zoom.k * factor) c.limits.min c.limits.max) : d.ZoomedWithin := by
  have number : Scalar.isNumber (Scalar.clamp (c.zoom.k * factor) c.limits.min c.limits.max) = true :=
    by
    rw [Ordered.isNumber_clamp sound.ordered, Double.isNumber_eq,
      (Double.rounded_mul within.finite finite).isNaN]
    rfl
  obtain ⟨above, below⟩ := Ordered.clamp_within number sound.ordered
  rw [← zoom] at above below
  exact
    { finite := Double.isFinite_of_between sound.finite_min sound.finite_max above below
      stretched := Ordered.le_trans sound.least above
      most := limits ▸ below
      least := .inl (limits ▸ above) }

theorem ZoomedWithin.shift (within : c.ZoomedWithin) (shifts : Shifts c d) : d.ZoomedWithin := by
  have unstretched : (Zoom.identity : Zoom Float).k = 1 := Double.scalar_one
  cases shifts with
  | stays same zoom => exact within.of_k same.limits (congrArg Zoom.k zoom)
  | resets same zoom =>
    exact zoomedWithin_of_identity sound same.limits ((congrArg Zoom.k zoom).trans unstretched)
  | pans dx same zoom => exact within.of_k same.limits (by rw [zoom]; rfl)
  | zooms x factor finite _ same zoom =>
    exact within.of_clamp sound same.limits finite (congrArg Zoom.k zoom)
  | loads _ limits _ _ zoom =>
    exact zoomedWithin_of_identity sound limits ((congrArg Zoom.k zoom).trans unstretched)
  | resizes _ limits _ _ zoom => exact within.of_k limits (by rw [zoom]; rfl)

theorem ZoomedWithin.performAll (within : c.ZoomedWithin) (gestures : List (Gesture Float)) :
    (c.performAll gestures).ZoomedWithin := by
  induction gestures generalizing c with
  | nil => exact within
  | cons g rest ih =>
    have shifts := shifts_perform c g
    exact ih (shifts.limits ▸ sound) (within.shift sound shifts)

end

section

variable {c : Controller Float}

theorem ZoomedWithin.value_nonneg (within : c.ZoomedWithin) : 0 ≤ Double.value c.zoom.k := by
  have stretched := (Double.le_iff_value (by decide) within.finite).1 within.stretched
  rw [Double.value_one] at stretched
  exact zero_le_one.trans stretched

theorem ZoomedWithin.le_zoomIn (within : c.ZoomedWithin) (grows : ¬ c.limits.step ≤ 1) :
    c.zoom.k ≤ c.zoomIn.1.zoom.k := by
  unfold zoomIn
  obtain same | ⟨finite, -, clamped⟩ := c.k_zoomAt c.center c.limits.step
  · rw [same]
    exact Ordered.le_refl (Ordered.number_of_le within.most).1
  · have step : 1 < Double.value c.limits.step := by
      rw [← Double.value_one]
      exact not_le.1 (mt (Double.le_iff_value finite (by decide)).2 grows)
    rw [clamped]
    exact Ordered.le_clamp
      (Double.le_mul_of_one_le within.finite finite within.value_nonneg step.le) within.most

theorem ZoomedWithin.zoomOut_le (within : c.ZoomedWithin) (grows : ¬ c.limits.step ≤ 1)
    (least : c.limits.min ≤ c.zoom.k) : c.zoomOut.1.zoom.k ≤ c.zoom.k := by
  unfold zoomOut
  rw [Double.scalar_one]
  obtain same | ⟨finite, positive, clamped⟩ := c.k_zoomAt c.center (1 / c.limits.step)
  · rw [same]
    exact Ordered.le_refl (Ordered.number_of_le least).2
  · rw [clamped]
    rw [Double.scalar_zero] at positive
    have unit : (1 : Float).isFinite = true := by decide
    have finite_step : c.limits.step.isFinite = true := Double.isFinite_of_div_pos unit finite positive
    have step : 1 < Double.value c.limits.step := by
      rw [← Double.value_one]
      exact not_le.1 (mt (Double.le_iff_value finite_step unit).2 grows)
    have part : Double.value 1 / Double.value c.limits.step ≤ Double.value 1 := by
      rw [Double.value_one]
      exact div_le_one_of_le₀ step.le (zero_le_one.trans step.le)
    have shrinks := (Double.rounded_div unit finite_step (zero_lt_one.trans step).ne').ge unit part
    rw [Double.le_iff_value finite unit, Double.value_one] at shrinks
    exact Ordered.clamp_le (Double.mul_le_of_le_one within.finite finite within.value_nonneg shrinks) least

end

/-- The zoom is within its limits, or the chart is not stretched though it must be. -/
theorem performAll_zoomed_within (s : Settings) (accepted : s.fault? = none)
    (finite_min : s.zoom.min.isFinite = true) (finite_max : s.zoom.max.isFinite = true)
    (chart : Chart Float) (interval : ℕ) (gestures : List (Gesture Float)) :
    let c := (new chart s.zoom interval).performAll gestures
    1 ≤ c.zoom.k ∧ c.zoom.k ≤ s.zoom.max ∧ (s.zoom.min ≤ c.zoom.k ∨ c.zoom.k = 1 ∧ 1 < s.zoom.min) ∧
      c.zoom.k ≤ c.zoomIn.1.zoom.k ∧
      (c.zoomOut.1.zoom.k ≤ c.zoom.k ∨ c.zoom.k = 1 ∧ 1 < s.zoom.min) := by
  intro c
  obtain ⟨least, ordered, grows, -⟩ := Settings.fault?_eq_none_iff.1 accepted
  have number_min := Double.isNaN_of_isFinite finite_min
  have sound : s.zoom.Sound :=
    { least := (Double.le_iff_of_not_lt least).2 ⟨by decide, number_min⟩
      ordered := (Double.le_iff_of_not_lt ordered).2 ⟨number_min, Double.isNaN_of_isFinite finite_max⟩
      finite_min := finite_min
      finite_max := finite_max }
  have within : c.ZoomedWithin :=
    (zoomedWithin_of_identity (c := new chart s.zoom interval) sound rfl Double.scalar_one).performAll
      sound gestures
  have limits : c.limits = s.zoom := limits_performAll _ gestures
  have bound : s.zoom.min ≤ c.zoom.k ∨ c.zoom.k = 1 ∧ 1 < s.zoom.min := by
    obtain above | unstretched := limits ▸ within.least
    · exact .inl above
    · by_cases beyond : 1 < s.zoom.min
      · exact .inr ⟨unstretched, beyond⟩
      · refine .inl ?_
        rw [unstretched]
        exact (Double.le_iff_of_not_lt beyond).2 ⟨number_min, by decide⟩
  refine ⟨within.stretched, limits ▸ within.most, bound, within.le_zoomIn (limits ▸ grows), ?_⟩
  exact bound.imp_left fun above => within.zoomOut_le (limits ▸ grows) (limits ▸ above)

-- With the least zoom at one, all of the bounds hold.
theorem performAll_zoomed_within_from_one :
    let s : Settings := { zoom := ⟨1, 50, 1.5⟩ }
    let c := (new ⟨s.geometry, Theme.dark.palette, .standard⟩ s.zoom 0).performAll
      [.resize ⟨800, 400⟩, .load 3 1000, .zoomIn, .zoomAt 300 1e300, .zoomOut, .resetZoom]
    s.fault? = none ∧ s.zoom.min.isFinite = true ∧ s.zoom.max.isFinite = true ∧
      s.zoom.min ≤ c.zoom.k ∧ c.zoom.k ≤ s.zoom.max ∧ c.zoom.k ≤ c.zoomIn.1.zoom.k ∧
      c.zoomOut.1.zoom.k ≤ c.zoom.k := by
  intro s c
  have accepted : s.fault? = none := by decide +kernel
  obtain ⟨-, most, least, zoomIn, zoomOut⟩ := performAll_zoomed_within s accepted (by decide) (by decide)
    ⟨s.geometry, Theme.dark.palette, .standard⟩ 0
    [.resize ⟨800, 400⟩, .load 3 1000, .zoomIn, .zoomAt 300 1e300, .zoomOut, .resetZoom]
  have met : ¬ 1 < s.zoom.min := by decide
  exact ⟨accepted, by decide, by decide, least.resolve_right fun h => met h.2, most, zoomIn,
    zoomOut.resolve_right fun h => met h.2⟩

-- With the least zoom at two, a new chart is below it, and zooming out doubles the chart.
theorem new_zoomed_below :
    let s : Settings := { zoom := ⟨2, 100, 1.25⟩ }
    let c := (new ⟨s.geometry, Theme.dark.palette, .standard⟩ s.zoom 0).performAll
      [.resize ⟨800, 400⟩, .load 3 1000]
    s.fault? = none ∧ s.zoom.min.isFinite = true ∧ s.zoom.max.isFinite = true ∧
      ¬ s.zoom.min ≤ c.zoom.k ∧ c.zoom.k < c.zoomOut.1.zoom.k ∧ (c.zoomOut.1.zoom.k == 2) = true := by
  decide +kernel

end Controller

end Waterfall
