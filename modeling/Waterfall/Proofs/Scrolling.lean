import Mathlib.Tactic.Linarith
import Mathlib.Tactic.Ring
import Waterfall.Proofs.Exact
import Waterfall.Proofs.Gestures

set_option autoImplicit false

namespace Waterfall

namespace Geometry

variable (labelWidth : ℕ)

@[simp] theorem rowHeight_terminal : (terminal labelWidth : Geometry ℝ).rowHeight = 1 :=
  Scalar.real_one

@[simp] theorem headerHeight_terminal : (terminal labelWidth : Geometry ℝ).headerHeight = 2 :=
  rfl

end Geometry

theorem Scalar.clamp_intCast (z : ℤ) (m : ℕ) :
    Scalar.clamp (z : ℝ) 0 (m : ℝ) = (Min.min z.toNat m : ℕ) := by
  unfold clamp
  split
  next negative =>
    have none_left : z.toNat = 0 := Int.toNat_of_nonpos (Int.cast_lt_zero.1 negative).le
    rw [none_left, Nat.zero_min, Nat.cast_zero]
  next notNegative =>
    have exact_toNat : (z : ℝ) = z.toNat := by
      rw [← Int.cast_natCast, Int.toNat_of_nonneg (Int.cast_nonneg_iff.1 (not_lt.1 notNegative))]
    rw [exact_toNat]
    split
    next above => rw [min_eq_right (Nat.cast_lt.1 above).le]
    next notAbove => rw [min_eq_left (Nat.cast_le.1 (not_lt.1 notAbove))]

namespace Controller

structure Whole (labelWidth : ℕ) (c : Controller ℝ) : Prop where
  geometry : c.geometry = .terminal labelWidth
  viewport : ∃ width height : ℕ, c.viewport = ⟨width, height⟩
  scroll : ∃ n : ℕ, c.scrollTop = n
  bounded : c.scrollTop ≤ c.maxScroll

structure Scrolls (c d : Controller ℝ) : Prop where
  chart : d.chart = c.chart
  viewport : d.viewport = c.viewport
  rowCount : d.rowCount = c.rowCount
  whole : ∀ {labelWidth : ℕ}, c.Whole labelWidth → d.Whole labelWidth

section

variable {c d e : Controller ℝ} {labelWidth : ℕ}

theorem maxScroll_nonneg (c : Controller ℝ) : 0 ≤ c.maxScroll := by
  rw [maxScroll, Scalar.real_positive]
  exact le_max_right _ _

theorem maxScroll_terminal {height : ℕ} (geometry : c.geometry = .terminal labelWidth)
    (viewport : c.viewport.height = height) :
    c.maxScroll = (c.rowCount + 2 - height : ℕ) := by
  have content : c.maxScroll = max (max (2 + (c.rowCount : ℝ)) height - height) 0 := by
    simp [maxScroll, Geometry.contentHeight, Geometry.rowTop, geometry, viewport]
  rw [content]
  obtain fits | overflows := le_total (c.rowCount + 2) height
  · have inside : 2 + (c.rowCount : ℝ) ≤ height := by exact_mod_cast Nat.add_comm 2 _ ▸ fits
    rw [max_eq_right inside, sub_self, max_self, Nat.sub_eq_zero_of_le fits, Nat.cast_zero]
  · have outside : (height : ℝ) ≤ 2 + c.rowCount := by exact_mod_cast Nat.add_comm 2 _ ▸ overflows
    rw [max_eq_left outside, max_eq_left (sub_nonneg.2 outside), Nat.cast_sub overflows]
    push_cast
    ring

theorem Whole.exists_maxScroll (whole : c.Whole labelWidth) : ∃ m : ℕ, c.maxScroll = m := by
  obtain ⟨width, height, viewport⟩ := whole.viewport
  exact ⟨_, maxScroll_terminal whole.geometry (by rw [viewport])⟩

theorem Whole.exists_body (whole : c.Whole labelWidth) : ∃ z : ℤ, c.body = z := by
  obtain ⟨width, height, viewport⟩ := whole.viewport
  refine ⟨max (height - 2) 1, ?_⟩
  simp [body, whole.geometry, viewport]

theorem Scrolls.refl (c : Controller ℝ) : Scrolls c c :=
  ⟨rfl, rfl, rfl, id⟩

theorem Scrolls.trans (first : Scrolls c d) (second : Scrolls d e) : Scrolls c e :=
  ⟨second.chart.trans first.chart, second.viewport.trans first.viewport,
    second.rowCount.trans first.rowCount, fun whole => second.whole (first.whole whole)⟩

theorem Scrolls.of_scrollTop (chart : d.chart = c.chart) (viewport : d.viewport = c.viewport)
    (rowCount : d.rowCount = c.rowCount) (scrollTop : d.scrollTop = c.scrollTop) :
    Scrolls c d := by
  refine ⟨chart, viewport, rowCount, fun whole => ?_⟩
  have geometry : d.geometry = c.geometry := congrArg Chart.geometry chart
  have maxScroll : d.maxScroll = c.maxScroll := by
    rw [Controller.maxScroll, Controller.maxScroll, geometry, viewport, rowCount]
  exact ⟨geometry ▸ whole.geometry, viewport ▸ whole.viewport, scrollTop ▸ whole.scroll,
    by rw [scrollTop, maxScroll]; exact whole.bounded⟩

theorem scrolls_requestRedraw (c : Controller ℝ) : Scrolls c c.requestRedraw :=
  .of_scrollTop rfl rfl rfl rfl

theorem Effect.scrolled {tops : ℝ → Prop} {r : Controller ℝ × Bool} (effect : Effect c tops r)
    (whole_tops : ∀ {labelWidth : ℕ}, c.Whole labelWidth → ∀ top, tops top → ∃ z : ℤ, top = z) :
    Scrolls c r.1 := by
  cases effect with
  | stays _ | asks | zooms _ _ _ | hovers _ => exact .of_scrollTop rfl rfl rfl rfl
  | @scrolls top way _ =>
    refine ⟨rfl, rfl, rfl, fun whole => ⟨whole.geometry, whole.viewport, ?_, ?_⟩⟩
    · obtain ⟨z, rfl⟩ := whole_tops whole top way
      obtain ⟨m, most⟩ := whole.exists_maxScroll
      refine ⟨min z.toNat m, ?_⟩
      rw [Scalar.real_zero, most]
      exact Scalar.clamp_intCast z m
    · rw [Scalar.real_zero]
      exact Scalar.clamp_le c.maxScroll_nonneg

theorem Effect.unscrolled {r : Controller ℝ × Bool} (effect : Effect c (fun _ => False) r) :
    Scrolls c r.1 :=
  effect.scrolled fun _ _ => False.elim

theorem scrolls_page (c : Controller ℝ) (pages : ℤ) : Scrolls c (c.page pages).1 := by
  refine (effect_page c _).scrolled fun whole top way => ?_
  obtain ⟨n, scroll⟩ := whole.scroll
  obtain ⟨z, body⟩ := whole.exists_body
  exact ⟨n + pages * z, by rw [way, scroll, body]; push_cast; rfl⟩

theorem scrolls_scrollIntoView (c : Controller ℝ) (row : ℕ) :
    Scrolls c (c.scrollIntoView row).1 := by
  refine (effect_scrollIntoView c row).scrolled fun whole top way => ?_
  obtain ⟨z, body⟩ := whole.exists_body
  obtain rfl | rfl := way
  · exact ⟨row, by simp [whole.geometry]⟩
  · exact ⟨row + 1 - z, by simp [whole.geometry, body]⟩

theorem scrolls_wheel (c : Controller ℝ) (x y : ℝ) (dx dy : ℤ) (modifiers : Modifiers) :
    Scrolls c (c.wheel ⟨x, y, Scalar.ofInt dx, Scalar.ofInt dy, modifiers⟩).1 := by
  refine (effect_wheel c _).scrolled fun whole top way => ?_
  obtain ⟨n, scroll⟩ := whole.scroll
  refine ⟨n + dy * 3, ?_⟩
  dsimp only at way
  rw [way, scroll, whole.geometry, Geometry.rowHeight_terminal, mul_one, Scalar.real_ofInt]
  push_cast
  rfl

theorem Whole.load (whole : c.Whole labelWidth) (rowCount : ℕ) (extent : UInt64) :
    (c.load rowCount extent).Whole labelWidth := by
  refine ⟨whole.geometry, whole.viewport, ⟨0, ?_⟩, ?_⟩
  · exact Scalar.real_zero.trans Nat.cast_zero.symm
  · exact Scalar.real_zero.trans_le (maxScroll_nonneg _)

-- Either it had that size already, or now it has.
theorem viewport_resize (c : Controller ℝ) (viewport : Viewport ℝ) :
    (c.resize viewport).viewport = viewport := by
  unfold Controller.resize
  split
  next same =>
    rw [Bool.and_eq_true, beq_iff_eq, beq_iff_eq] at same
    cases viewport
    cases held : c.viewport
    rw [held] at same
    exact congrArg₂ Viewport.mk same.1.symm same.2.symm
  next => rfl

theorem rowCount_resize (c : Controller ℝ) (viewport : Viewport ℝ) :
    (c.resize viewport).rowCount = c.rowCount := by
  unfold Controller.resize
  split
  next => rfl
  next => rfl

theorem Whole.resize (whole : c.Whole labelWidth) (width height : ℕ) :
    (c.resize ⟨width, height⟩).Whole labelWidth := by
  unfold Controller.resize
  simp only [Scalar.real_zero]
  split
  next => exact whole
  next =>
    obtain ⟨n, scroll⟩ := whole.scroll
    refine ⟨whole.geometry, ⟨width, height, rfl⟩, ?_, ?_⟩
    · have most : ({ c with viewport := ⟨width, height⟩ } : Controller ℝ).rebuildBase.maxScroll =
          (c.rowCount + 2 - height : ℕ) := maxScroll_terminal whole.geometry rfl
      refine ⟨min (n : ℤ).toNat (c.rowCount + 2 - height), ?_⟩
      have clamped := Scalar.clamp_intCast n (c.rowCount + 2 - height)
      rw [Int.cast_natCast, ← scroll] at clamped
      exact (congrArg (Scalar.clamp c.scrollTop 0) most).trans clamped
    · exact Scalar.clamp_le (maxScroll_nonneg _)

end

end Controller

end Waterfall
