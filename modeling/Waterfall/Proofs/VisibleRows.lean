import Mathlib.Tactic.Linarith
import Mathlib.Tactic.NormNum
import Waterfall.Chart
import Waterfall.Proofs.Exact

set_option autoImplicit false

namespace Waterfall

namespace Geometry

variable {g : Geometry ℝ}

theorem rowHeight_pos (valid : g.fault? = none) : 0 < g.rowHeight := by
  unfold fault? at valid
  rw [Scalar.real_zero] at valid
  split at valid
  next => cases valid
  next positive => exact not_le.1 positive

-- The first visible row ends below the top of the body, and the last one begins above its bottom.
theorem mem_visibleRows_iff (tall : 0 < g.rowHeight) {top : ℝ} (unmoved : 0 ≤ top) {rows : ℕ}
    (fits : rows < 2 ^ 64) (viewport : Viewport ℝ) (r : ℕ) :
    ((g.visibleRows rows viewport top).1 ≤ r ∧ r < (g.visibleRows rows viewport top).2) ↔
      r < rows ∧ r * g.rowHeight < top + max (viewport.height - g.headerHeight) 0 ∧
        top < (r + 1) * g.rowHeight := by
  have first : ⌊top / g.rowHeight⌋₊ ≤ r ↔ top < (r + 1) * g.rowHeight := by
    rw [← Nat.lt_succ_iff, Nat.floor_lt (div_nonneg unmoved tall.le), div_lt_iff₀ tall,
      Nat.succ_eq_add_one, Nat.cast_add, Nat.cast_one]
  have last (bottom : ℝ) : r < ⌈bottom / g.rowHeight⌉₊ ↔ r * g.rowHeight < bottom := by
    rw [Nat.lt_ceil, lt_div_iff₀ tall]
  rw [← first, ← last]
  simp only [visibleRows, Scalar.real_positive, Scalar.toWord_floor, Scalar.toWord_ceil]
  change min (min _ _) rows ≤ r ∧ r < min (min _ _) rows ↔ _
  omega

theorem fault?_standard : (standard : Geometry ℝ).fault? = none := by
  have rowHeight : (standard : Geometry ℝ).rowHeight = 24 := rfl
  have headerHeight : (standard : Geometry ℝ).headerHeight = 30 := rfl
  have labelGutter : (standard : Geometry ℝ).labelGutter = 200 := rfl
  have marginRight : (standard : Geometry ℝ).marginRight = 16 := rfl
  have minBarWidth : (standard : Geometry ℝ).minBarWidth = 3 := rfl
  have barInset : (standard : Geometry ℝ).barInset = 5 := rfl
  have charWidth : (standard : Geometry ℝ).charWidth = 7 := rfl
  have tickSpacing : (standard : Geometry ℝ).tickSpacing = 100 := rfl
  have panStep : (standard : Geometry ℝ).panStep = 40 := rfl
  simp only [fault?, Scalar.real_zero, rowHeight, headerHeight, labelGutter, marginRight, minBarWidth,
    barInset, charWidth, tickSpacing, panStep]
  norm_num

end Geometry

namespace Chart

theorem slice_eq_filter (rows : List Row) (range : ℕ × ℕ) :
    slice rows range =
      (rows.zipIdx.filter fun x => range.1 ≤ x.2 ∧ x.2 < range.2).map Prod.fst := by
  obtain ⟨first, last⟩ := range
  have numbered (k : ℕ) : (rows.take (last - k)).drop (first - k) =
      ((rows.zipIdx k).filter fun x => first ≤ x.2 ∧ x.2 < last).map Prod.fst := by
    induction rows generalizing k with
    | nil => simp
    | cons row rest ih =>
      rw [List.zipIdx_cons]
      by_cases before : k < last
      next =>
        have taken : last - k = last - (k + 1) + 1 := by omega
        rw [taken, List.take_succ_cons]
        by_cases after : first ≤ k
        next =>
          have all : first - k = 0 := by omega
          have all_later : first - (k + 1) = 0 := by omega
          rw [List.filter_cons_of_pos (by simp [after, before]), List.map_cons, ← ih, all,
            all_later, List.drop_zero, List.drop_zero]
        next =>
          have dropped : first - k = first - (k + 1) + 1 := by omega
          rw [List.filter_cons_of_neg (by simp [after]), ← ih, dropped, List.drop_succ_cons]
      next =>
        have nothing : last - k = 0 := by omega
        have nothing_later : last - (k + 1) = 0 := by omega
        rw [List.filter_cons_of_neg (by simp [before]), ← ih, nothing, nothing_later, List.take_zero,
          List.take_zero, List.drop_nil, List.drop_nil]
  exact numbered 0

section

variable (c : Chart ℝ) {f : Frame ℝ}

theorem contentHeight_scene (listed : f.rows ≠ []) :
    (c.scene f).contentHeight =
      max (c.geometry.headerHeight + f.rows.length * c.geometry.rowHeight) f.viewport.height := by
  rw [scene, if_neg (by simpa using listed)]
  exact Scalar.real_max _ _

theorem scrollTop_scene (listed : f.rows ≠ []) :
    (c.scene f).scrollTop =
      max 0 (min f.scrollTop (max ((c.scene f).contentHeight - f.viewport.height) 0)) := by
  rw [scene, if_neg (by simpa using listed)]
  simp only [Scalar.real_positive, Scalar.real_zero]
  exact Scalar.real_clamp (le_max_right _ _)

theorem visibleRows_scene (listed : f.rows ≠ []) :
    (c.scene f).visibleRows =
      c.geometry.visibleRows f.rows.length f.viewport (c.scene f).scrollTop := by
  rw [scene, if_neg (by simpa using listed)]

theorem rows_scene (listed : f.rows ≠ []) :
    (c.scene f).rows = (slice f.rows (c.scene f).visibleRows).flatMap (c.rowShapes f) := by
  rw [scene, if_neg (by simpa using listed)]

end

/-- A row is visible exactly if its band meets the body, and the shapes of the rows are those of the visible ones, in
order. -/
theorem scene_draws_visible (c : Chart ℝ) (f : Frame ℝ) (valid : c.geometry.fault? = none)
    (listed : f.rows ≠ []) (fits : f.rows.length < 2 ^ 64) (top : ℝ) :
    let g := c.geometry
    let s := c.scene { f with scrollTop := top }
    s.header = (c.scene f).header ∧ s.grid = (c.scene f).grid ∧
      s.contentHeight = (c.scene f).contentHeight ∧
      s.contentHeight = max (g.headerHeight + f.rows.length * g.rowHeight) f.viewport.height ∧
      s.scrollTop = max 0 (min top (max (s.contentHeight - f.viewport.height) 0)) ∧
      (∀ r, (s.visibleRows.1 ≤ r ∧ r < s.visibleRows.2) ↔
        r < f.rows.length ∧
          r * g.rowHeight < s.scrollTop + max (f.viewport.height - g.headerHeight) 0 ∧
          s.scrollTop < (r + 1) * g.rowHeight) ∧
      s.rows = (f.rows.zipIdx.filter fun x => s.visibleRows.1 ≤ x.2 ∧ x.2 < s.visibleRows.2).flatMap
        fun x => c.rowShapes f x.1 := by
  intro g s
  have scrolled : s.scrollTop = _ := c.scrollTop_scene (f := { f with scrollTop := top }) listed
  have some_row : ¬ f.rows.isEmpty = true := by simpa using listed
  have still : s.header = (c.scene f).header ∧ s.grid = (c.scene f).grid ∧
      s.contentHeight = (c.scene f).contentHeight := by
    simp only [s, scene, if_neg some_row, and_self]
  refine ⟨still.1, still.2.1, still.2.2, c.contentHeight_scene (f := { f with scrollTop := top }) listed,
    scrolled, fun r => ?_, ?_⟩
  · have unmoved : 0 ≤ s.scrollTop := by
      rw [scrolled]
      exact le_max_left _ _
    have visible := c.visibleRows_scene (f := { f with scrollTop := top }) listed
    rw [visible]
    exact Geometry.mem_visibleRows_iff (Geometry.rowHeight_pos valid) unmoved fits f.viewport r
  · have drawn := c.rows_scene (f := { f with scrollTop := top }) listed
    rw [slice_eq_filter, List.flatMap_map] at drawn
    exact drawn

-- Half of the second row and all of the third lie in the body.
theorem scene_draws_visible_scrolled :
    let c : Chart ℝ := ⟨.standard, default, []⟩
    let f : Frame ℝ :=
      { rows := [⟨default, 0, 0⟩, ⟨default, 1, 1⟩, ⟨default, 2, 1⟩], scale := ⟨(0, 1), (200, 784)⟩
        selected := none, hovered := none, viewport := ⟨800, 70⟩, scrollTop := 0 }
    let s := c.scene { f with scrollTop := 30 }
    c.geometry.fault? = none ∧ f.rows ≠ [] ∧ f.rows.length < 2 ^ 64 ∧ s.scrollTop = 30 ∧
      (∀ r, (s.visibleRows.1 ≤ r ∧ r < s.visibleRows.2) ↔ r = 1 ∨ r = 2) ∧
      s.rows = c.rowShapes f ⟨default, 1, 1⟩ ++ c.rowShapes f ⟨default, 2, 1⟩ := by
  intro c f s
  have rowHeight : c.geometry.rowHeight = 24 := rfl
  have headerHeight : c.geometry.headerHeight = 30 := rfl
  have viewport : f.viewport.height = 70 := rfl
  have length : f.rows.length = 3 := rfl
  obtain ⟨-, -, -, height, scroll, visible, drawn⟩ :=
    c.scene_draws_visible f Geometry.fault?_standard (by simp [f]) (by simp [f]) 30
  rw [rowHeight, headerHeight, viewport, length] at height
  rw [height, viewport] at scroll
  norm_num at scroll
  simp only [rowHeight, headerHeight, viewport, length, scroll] at visible
  have among (r : ℕ) : (s.visibleRows.1 ≤ r ∧ r < s.visibleRows.2) ↔ r = 1 ∨ r = 2 := by
    refine (visible r).trans ⟨?_, ?_⟩
    · rintro ⟨inside, -, above⟩
      have later : r ≠ 0 := by
        rintro rfl
        norm_num at above
      omega
    · rintro (rfl | rfl) <;> norm_num
  have kept : (f.rows.zipIdx.filter fun x => s.visibleRows.1 ≤ x.2 ∧ x.2 < s.visibleRows.2) =
      [(⟨default, 1, 1⟩, 1), (⟨default, 2, 1⟩, 2)] := by
    simp only [among]
    rfl
  refine ⟨Geometry.fault?_standard, by simp [f], by simp [f], scroll, among, drawn.trans ?_⟩
  rw [kept, List.flatMap_cons, List.flatMap_singleton]

end Chart

end Waterfall
