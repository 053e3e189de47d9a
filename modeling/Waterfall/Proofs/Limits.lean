import Waterfall.Proofs.Double.Order
import Waterfall.Proofs.Gestures
import Waterfall.Settings.Basic

set_option autoImplicit false

namespace Waterfall

section

variable {α : Type} [Scalar α]

def Scalar.clamp? (x low high : α) : Option α :=
  if low ≤ high then some (Scalar.clamp x low high) else none

def Zoom.zoomAt? (z : Zoom α) (anchor factor : α) (limits : ZoomLimits α) (range : α × α) :
    Option (Zoom α) :=
  (Scalar.clamp? (z.k * factor) limits.min limits.max).map fun k =>
    constrain ⟨k, anchor - (anchor - z.x) * (k / z.k)⟩ range

theorem Zoom.zoomAt?_eq_some_iff {z : Zoom α} {anchor factor : α} {limits : ZoomLimits α}
    {range : α × α} :
    z.zoomAt? anchor factor limits range = some (z.zoomAt anchor factor limits range) ↔
      limits.min ≤ limits.max := by
  unfold zoomAt? Scalar.clamp?
  split
  next ordered => exact iff_of_true rfl ordered
  next disordered => exact iff_of_false nofun disordered

theorem ite_some_eq_none {β : Type} {p : Prop} [Decidable p] {fault : β} {rest : Option β} :
    (if p then some fault else rest) = none ↔ ¬ p ∧ rest = none := by
  split
  next holds => exact iff_of_false nofun fun h => h.1 holds
  next fails => exact (and_iff_right fails).symm

theorem Geometry.fault?_eq_none_iff {g : Geometry α} :
    g.fault? = none ↔
      ¬ g.rowHeight ≤ 0 ∧ (¬ g.headerHeight < 0 ∧ ¬ g.marginRight < 0 ∧ ¬ g.barInset < 0) ∧
        (0 ≤ g.labelGutter ∧ g.labelGutter < 10000) ∧ ¬ g.rowHeight ≤ g.barInset * 2 ∧
        (¬ g.minBarWidth ≤ 0 ∧ ¬ g.charWidth ≤ 0) ∧ ¬ g.tickSpacing ≤ 0 ∧ ¬ g.panStep ≤ 0 := by
  simp only [fault?, ite_some_eq_none, not_or, not_not, and_true]

end

theorem Settings.fault?_eq_none_iff {s : Settings} :
    s.fault? = none ↔
      ¬ s.zoom.min < 1 ∧ ¬ s.zoom.max < s.zoom.min ∧ ¬ s.zoom.step ≤ 1 ∧ s.frameInterval ≠ 0 ∧
        s.geometry.fault? = none ∧ s.labelWidth ≠ 0 ∧
        (0.1 ≤ s.timelineRatio ∧ s.timelineRatio ≤ 0.9) ∧ (trim s.layoutId).isEmpty = false := by
  unfold fault?
  rw [ite_some_eq_none, ite_some_eq_none, ite_some_eq_none, ite_some_eq_none]
  cases s.geometry.fault? with
  | some fault => simp
  | none => simp only [ite_some_eq_none, not_not, Bool.not_eq_true, and_true, true_and]

/-- Of accepted settings each bound holds exactly if the sizes in it are numbers, and the limits of the zoom are in
order exactly if both of them are. -/
theorem Settings.bounds_of_accepted (s : Settings) (accepted : s.fault? = none) :
    let g := s.geometry
    (1 ≤ s.zoom.min ↔ s.zoom.min.isNaN = false) ∧
      (s.zoom.min ≤ s.zoom.max ↔ s.zoom.min.isNaN = false ∧ s.zoom.max.isNaN = false) ∧
      (1 < s.zoom.step ↔ s.zoom.step.isNaN = false) ∧
      (0 < g.rowHeight ↔ g.rowHeight.isNaN = false) ∧
      (0 ≤ g.headerHeight ↔ g.headerHeight.isNaN = false) ∧
      (0 ≤ g.marginRight ↔ g.marginRight.isNaN = false) ∧
      (0 ≤ g.barInset ↔ g.barInset.isNaN = false) ∧
      (g.barInset * 2 < g.rowHeight ↔ g.barInset.isNaN = false ∧ g.rowHeight.isNaN = false) ∧
      (0 < g.minBarWidth ↔ g.minBarWidth.isNaN = false) ∧
      (0 < g.charWidth ↔ g.charWidth.isNaN = false) ∧
      (0 < g.tickSpacing ↔ g.tickSpacing.isNaN = false) ∧
      (0 < g.panStep ↔ g.panStep.isNaN = false) ∧
      ∀ (chart : Chart Float) (interval : ℕ) (gestures : List (Gesture Float)) (anchor factor : Float),
        let c := (Controller.new chart s.zoom interval).performAll gestures
        c.zoom.zoomAt? anchor factor c.limits c.range =
            some (c.zoom.zoomAt anchor factor c.limits c.range) ↔
          s.zoom.min.isNaN = false ∧ s.zoom.max.isNaN = false := by
  intro g
  obtain ⟨min, max, step, -, sizes, -⟩ := fault?_eq_none_iff.1 accepted
  obtain ⟨row, ⟨header, margin, inset⟩, -, bars, ⟨bar, char⟩, tick, pan⟩ :=
    Geometry.fault?_eq_none_iff.1 sizes
  have two : @OfNat.ofNat Float 2 (Scalar.instOfNat 2) = 2 := by decide
  rw [Double.scalar_zero] at row header margin inset bar char tick pan
  rw [two] at bars
  have doubled : (g.barInset * 2).isNaN = g.barInset.isNaN :=
    Double.isNaN_mul (show (2 : Float).toModel.unpack = .finite .positive (2 ^ 52) (-51) (by decide) from rfl)
  have positive {x : Float} (above : ¬ x ≤ 0) : 0 < x ↔ x.isNaN = false :=
    (Double.lt_iff_of_not_le above).trans (and_iff_right (by decide))
  have notNegative {x : Float} (above : ¬ x < 0) : 0 ≤ x ↔ x.isNaN = false :=
    (Double.le_iff_of_not_lt above).trans (and_iff_right (by decide))
  have ordered : s.zoom.min ≤ s.zoom.max ↔ _ := Double.le_iff_of_not_lt max
  refine ⟨(Double.le_iff_of_not_lt min).trans (and_iff_right (by decide)), ordered,
    (Double.lt_iff_of_not_le step).trans (and_iff_right (by decide)), positive row,
    notNegative header, notNegative margin, notNegative inset,
    (Double.lt_iff_of_not_le bars).trans (by rw [doubled]), positive bar, positive char,
    positive tick, positive pan, fun chart interval gestures anchor factor => ?_⟩
  intro c
  have limits : c.limits = s.zoom := Controller.limits_performAll _ gestures
  rw [Zoom.zoomAt?_eq_some_iff, limits]
  exact ordered

-- A step of the panning that is no number breaks no bound but its own.
theorem Settings.bounds_of_accepted_nan_pan :
    let s : Settings :=
      { zoom := ⟨2, 50, 1.5⟩, geometry := { Geometry.standard with barInset := 11.5, panStep := 0 / 0 } }
    let c := (Controller.new ⟨s.geometry, Theme.dark.palette, .standard⟩ s.zoom 0).performAll
      [.resize ⟨800, 400⟩, .load 3 1000, .zoomIn]
    s.fault? = none ∧ 1 ≤ s.zoom.min ∧ s.geometry.barInset * 2 < s.geometry.rowHeight ∧
      ¬ 0 < s.geometry.panStep ∧
      c.zoom.zoomAt? 300 1e300 c.limits c.range = some (c.zoom.zoomAt 300 1e300 c.limits c.range) := by
  intro s c
  have accepted : s.fault? = none := by decide +kernel
  obtain ⟨min, -, -, -, -, -, -, bars, -, -, -, pan, zooms⟩ := s.bounds_of_accepted accepted
  refine ⟨accepted, min.2 (by decide), bars.2 (by decide), fun positive => ?_, (zooms ..).2 (by decide)⟩
  exact absurd (pan.1 positive) (by decide)

-- A least zoom that is no number is accepted, and no zoom lies between the limits.
theorem Settings.accepted_without_bounds :
    let s : Settings := { zoom := ⟨0 / 0, 100, 1.25⟩ }
    let c := Controller.new ⟨s.geometry, Theme.dark.palette, .standard⟩ s.zoom 0
    s.fault? = none ∧ ¬ 1 ≤ s.zoom.min ∧ ¬ s.zoom.min ≤ s.zoom.max ∧
      (c.zoom.zoomAt? 0 2 c.limits c.range).isNone = true := by
  decide +kernel

end Waterfall
