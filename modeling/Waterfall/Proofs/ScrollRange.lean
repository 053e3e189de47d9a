import Waterfall.Proofs.Exact
import Waterfall.Proofs.Gestures

set_option autoImplicit false

namespace Waterfall

namespace Controller

open Scalar (isNumber Ordered)

section

variable {α : Type} [Scalar α]

def ScrolledWithin (c : Controller α) : Prop :=
  isNumber c.scrollTop = true → 0 ≤ c.scrollTop ∧ c.scrollTop ≤ c.maxScroll

section

variable (c : Controller α) {rows : List Row} (selected : Option String)

theorem viewport_scene : (c.scene rows selected).viewport = c.viewport := by
  unfold scene frame Chart.scene
  split
  next => rfl
  next => rfl

variable (listed : rows ≠ []) (loaded : rows.length = c.rowCount)

include listed loaded

theorem scrollTop_scene : (c.scene rows selected).scrollTop = Scalar.clamp c.scrollTop 0 c.maxScroll := by
  rw [maxScroll, ← loaded, scene, frame, Chart.scene, if_neg (by simpa using listed)]
  rfl

theorem maxScroll_scene : (c.scene rows selected).maxScroll = c.maxScroll := by
  rw [maxScroll, ← loaded, scene, frame, Chart.scene, if_neg (by simpa using listed)]
  rfl

theorem visibleRows_scene : (c.scene rows selected).visibleRows =
    c.geometry.visibleRows c.rowCount c.viewport (c.scene rows selected).scrollTop := by
  rw [← loaded, scene, frame, Chart.scene, if_neg (by simpa using listed)]
  rfl

omit loaded in
theorem bodyTop_scene : (c.scene rows selected).bodyTop = c.geometry.headerHeight := by
  rw [scene, frame, Chart.scene, if_neg (by simpa using listed)]
  rfl

end

section

variable {c : Controller α} {r : Controller α × Bool}

theorem Effect.layout_eq {tops : α → Prop} (effect : Effect c tops r) :
    r.1.chart = c.chart ∧ r.1.viewport = c.viewport ∧ r.1.rowCount = c.rowCount := by
  cases effect <;> exact ⟨rfl, rfl, rfl⟩

theorem Effect.scrollTop_eq (effect : Effect c (fun _ => False) r) : r.1.scrollTop = c.scrollTop := by
  cases effect with
  | scrolls way => exact way.elim
  | _ => rfl

end

variable [Ordered α] {c : Controller α}

theorem scrolledWithin_of_clamp {top : α} (scrolled : c.scrollTop = Scalar.clamp top 0 c.maxScroll) :
    c.ScrolledWithin := by
  intro number
  rw [scrolled] at number ⊢
  exact Ordered.clamp_within number (Ordered.positive_nonneg _)

theorem scrolledWithin_of_zero (unmoved : c.scrollTop = 0) : c.ScrolledWithin := by
  intro _
  rw [unmoved]
  exact ⟨Ordered.le_refl Ordered.number_zero, Ordered.positive_nonneg _⟩

theorem scrolledWithin_new (chart : Chart α) (limits : ZoomLimits α) (interval : ℕ) :
    (new chart limits interval).ScrolledWithin :=
  scrolledWithin_of_zero rfl

theorem scrolledWithin_load (c : Controller α) (rowCount : ℕ) (extent : UInt64) :
    (c.load rowCount extent).ScrolledWithin :=
  scrolledWithin_of_zero rfl

theorem ScrolledWithin.resize (within : c.ScrolledWithin) (viewport : Viewport α) :
    (c.resize viewport).ScrolledWithin := by
  unfold Controller.resize
  split
  next => exact within
  next => exact scrolledWithin_of_clamp rfl

theorem ScrolledWithin.effect (within : c.ScrolledWithin) {tops : α → Prop} {r : Controller α × Bool}
    (effect : Effect c tops r) : r.1.ScrolledWithin := by
  cases effect with
  | stays | asks | zooms | hovers => exact within
  | scrolls => exact scrolledWithin_of_clamp rfl

theorem ScrolledWithin.perform (within : c.ScrolledWithin) (g : Gesture α) :
    (c.perform g).ScrolledWithin := by
  by_cases acts : g.acts = true
  · obtain ⟨tops, effect⟩ := effect_perform c acts
    exact within.effect effect
  · cases g with
    | load rowCount extent => exact scrolledWithin_load c rowCount extent
    | resize viewport => exact within.resize viewport
    | beginFrame now => exact within
    | _ => exact absurd rfl acts

theorem ScrolledWithin.performAll (within : c.ScrolledWithin) (gestures : List (Gesture α)) :
    (c.performAll gestures).ScrolledWithin := by
  induction gestures generalizing c with
  | nil => exact within
  | cons g rest ih => exact ih (within.perform g)

theorem ScrolledWithin.clamp_eq (within : c.ScrolledWithin) :
    Scalar.clamp c.scrollTop 0 c.maxScroll = c.scrollTop := by
  have ordered : 0 ≤ c.maxScroll := Ordered.positive_nonneg _
  by_cases number : isNumber c.scrollTop = true
  · obtain ⟨above, below⟩ := within number
    exact Ordered.clamp_of_within above below
  · -- What is no number is neither below nor above.
    have notBelow : ¬ c.scrollTop < 0 := fun less =>
      number (Ordered.number_of_le (Ordered.le_of_lt less)).1
    have notAbove : ¬ c.maxScroll < c.scrollTop := fun less =>
      number (Ordered.number_of_le (Ordered.le_of_lt less)).2
    rw [Scalar.clamp, if_neg notBelow, if_neg notAbove]

end

noncomputable def moved (c : Controller ℝ) (top : ℝ) : Controller ℝ × Bool :=
  if |top - c.scrollTop| < 2⁻¹ ^ 52 then (c, false)
  else ({ c with scrollTop := top }.requestRedraw, true)

theorem scrollTo_eq {c : Controller ℝ} {top : ℝ} (above : 0 ≤ top) (below : top ≤ c.maxScroll) :
    c.scrollTo top = c.moved top := by
  have kept : Scalar.clamp top 0 c.maxScroll = top := Scalar.clamp_of_between above below
  unfold scrollTo
  rw [Scalar.real_zero, kept]
  dsimp only
  rw [Scalar.real_abs]
  rfl

theorem scrollTop_moved (c : Controller ℝ) (top : ℝ) :
    |(c.moved top).1.scrollTop - top| < 2⁻¹ ^ 52 := by
  unfold moved
  split
  next near => rwa [abs_sub_comm]
  next =>
    have none : top - top = 0 := sub_self top
    change |top - top| < 2⁻¹ ^ 52
    rw [none, abs_zero]
    positivity

/-- In exact arithmetic no gesture scrolls out of range, and a scene shows the chart scrolled as the controller has it. -/
theorem performAll_scrolled_within (chart : Chart ℝ) (limits : ZoomLimits ℝ) (interval : ℕ)
    (gestures : List (Gesture ℝ)) :
    let c := (new chart limits interval).performAll gestures
    0 ≤ c.scrollTop ∧ c.scrollTop ≤ c.maxScroll ∧
      ∀ (rows : List Row) (selected : Option String), rows ≠ [] → rows.length = c.rowCount →
        (c.scene rows selected).scrollTop = c.scrollTop ∧
          (c.scene rows selected).maxScroll = c.maxScroll := by
  intro c
  have within : c.ScrolledWithin := (scrolledWithin_new chart limits interval).performAll gestures
  obtain ⟨above, below⟩ := within (beq_self_eq_true c.scrollTop)
  rw [Scalar.real_zero] at above
  refine ⟨above, below, fun rows selected listed loaded => ⟨?_, c.maxScroll_scene selected listed loaded⟩⟩
  exact (c.scrollTop_scene selected listed loaded).trans within.clamp_eq

-- Three rows fit, so that nothing is left of what was scrolled away of ten.
theorem performAll_scrolled_within_fewer :
    let c := (new (⟨.standard, Theme.dark.palette, .standard⟩ : Chart ℝ) ⟨1, 100, 1.25⟩ 0).performAll
      [.resize ⟨800, 126⟩, .load 10 5000, .scrollTo 1000, .zoomIn, .load 3 800, .page 2]
    let s := c.scene [⟨default, 0, 0⟩, ⟨default, 1, 1⟩, ⟨default, 2, 1⟩] none
    0 ≤ c.scrollTop ∧ c.scrollTop ≤ c.maxScroll ∧ s.scrollTop = c.scrollTop ∧
      s.maxScroll = c.maxScroll := by
  intro c s
  have counted : c.rowCount = 3 := (effect_page _ 2).layout_eq.2.2
  obtain ⟨above, below, drawn⟩ := performAll_scrolled_within
    (⟨.standard, Theme.dark.palette, .standard⟩ : Chart ℝ) ⟨1, 100, 1.25⟩ 0
    [.resize ⟨800, 126⟩, .load 10 5000, .scrollTo 1000, .zoomIn, .load 3 800, .page 2]
  obtain ⟨scrolled, most⟩ :=
    drawn [⟨default, 0, 0⟩, ⟨default, 1, 1⟩, ⟨default, 2, 1⟩] none (by simp) counted.symm
  exact ⟨above, below, scrolled, most⟩

end Controller

end Waterfall
