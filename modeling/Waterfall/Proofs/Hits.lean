import Mathlib.Tactic.Linarith
import Mathlib.Tactic.NormNum
import Waterfall.Proofs.Scrolling
import Waterfall.Proofs.ScrollRange
import Waterfall.Proofs.VisibleRows

set_option autoImplicit false

namespace Waterfall

theorem Geometry.rowAt?_eq_some_iff {g : Geometry ℝ} (tall : 0 < g.rowHeight) {y top : ℝ} {row : ℕ}
    (near : row < 2 ^ 64 - 1) :
    g.rowAt? y top = some row ↔
      g.headerHeight ≤ y ∧ g.rowTop row - top ≤ y ∧ y < g.rowTop row + g.rowHeight - top := by
  have word : Scalar.toWord (Scalar.floor ((y - g.headerHeight + top) / g.rowHeight)) = row ↔
      ⌊(y - g.headerHeight + top) / g.rowHeight⌋₊ = row := by
    rw [Scalar.toWord_floor]
    omega
  unfold rowAt?
  rw [Scalar.real_zero]
  dsimp only
  split
  next above => exact iff_of_false nofun fun h => h.1.not_gt above
  next notAbove =>
    rw [Option.ite_none_right_eq_some, Option.some_inj, word, rowTop, Scalar.real_ofNat]
    have start : (0 : ℝ) ≤ row * g.rowHeight := mul_nonneg row.cast_nonneg tall.le
    have cell (below : 0 ≤ y - g.headerHeight + top) :
        ⌊(y - g.headerHeight + top) / g.rowHeight⌋₊ = row ↔
          row * g.rowHeight ≤ y - g.headerHeight + top ∧
            y - g.headerHeight + top < row * g.rowHeight + g.rowHeight := by
      rw [Nat.floor_eq_iff (div_nonneg below tall.le), le_div_iff₀ tall, div_lt_iff₀ tall, add_mul,
        one_mul]
    constructor
    · rintro ⟨below, same⟩
      obtain ⟨low, high⟩ := (cell below).1 same
      exact ⟨not_lt.1 notAbove, by linarith, by linarith⟩
    · rintro ⟨-, low, high⟩
      have below : 0 ≤ y - g.headerHeight + top := by linarith
      exact ⟨below, (cell below).2 ⟨by linarith, by linarith⟩⟩

namespace Controller

theorem click_snd {α : Type} [Scalar α] (c : Controller α) (x y : α) (rows : List Row) :
    (c.click x y rows).2 = (c.hit? x y).bind fun row => rows[row]? := by
  unfold click
  split
  next row picked => exact picked.symm
  next nothing => exact nothing.symm

theorem hovered_hover {α : Type} [Scalar α] (c : Controller α) (x y : α) :
    (c.hover x y).1.hovered = c.hit? x y := by
  unfold hover
  dsimp only
  split
  next same => exact same.symm
  next => rfl

noncomputable def bandTop (c : Controller ℝ) (row : ℕ) : ℝ :=
  c.geometry.rowTop row - c.scrollTop

section

variable {c : Controller ℝ} (tall : 0 < c.geometry.rowHeight) {x y : ℝ} {row : ℕ}

include tall

theorem hit?_eq_some_iff (counted : c.rowCount < 2 ^ 64) :
    c.hit? x y = some row ↔
      (0 ≤ x ∧ x ≤ c.viewport.width) ∧ (c.geometry.headerHeight ≤ y ∧ y ≤ c.viewport.height) ∧
        row < c.rowCount ∧ c.bandTop row ≤ y ∧ y < c.bandTop row + c.geometry.rowHeight := by
  unfold hit?
  rw [Scalar.real_zero]
  split
  next outside =>
    refine iff_of_false nofun fun h => ?_
    obtain ⟨⟨left, right⟩, ⟨-, low⟩, -⟩ := h
    obtain beyond | beyond | beyond := outside
    · exact left.not_gt beyond
    · exact right.not_gt beyond
    · exact low.not_gt beyond
  next inside =>
    simp only [not_or, not_lt] at inside
    rw [Option.filter_eq_some_iff, decide_eq_true_eq, bandTop, sub_add_eq_add_sub]
    constructor
    · rintro ⟨hit, listed⟩
      obtain ⟨below, band⟩ := (Geometry.rowAt?_eq_some_iff tall (by omega)).1 hit
      exact ⟨⟨inside.1, inside.2.1⟩, ⟨below, inside.2.2⟩, listed, band⟩
    · rintro ⟨-, ⟨below, -⟩, listed, band⟩
      exact ⟨(Geometry.rowAt?_eq_some_iff tall (by omega)).2 ⟨below, band⟩, listed⟩

variable {rows : List Row} (selected : Option String) (within : c.ScrolledWithin)
  (loaded : rows.length = c.rowCount) (counted : c.rowCount < 2 ^ 64)

include within loaded counted

theorem visible_iff (listed : rows ≠ []) :
    ((c.scene rows selected).visibleRows.1 ≤ row ∧ row < (c.scene rows selected).visibleRows.2) ↔
      row < c.rowCount ∧
        row * c.geometry.rowHeight <
          c.scrollTop + max (c.viewport.height - c.geometry.headerHeight) 0 ∧
        c.scrollTop < (row + 1) * c.geometry.rowHeight := by
  have unmoved : 0 ≤ c.scrollTop := Scalar.real_zero ▸ (within (beq_self_eq_true _)).1
  rw [c.visibleRows_scene selected listed loaded, c.scrollTop_scene selected listed loaded,
    within.clamp_eq, Geometry.mem_visibleRows_iff tall unmoved counted]

-- The pointer is below the top of the band, so that only this may lie on the edge.
theorem visible_iff_of_hit? (hit : c.hit? x y = some row) :
    ((c.scene rows selected).visibleRows.1 ≤ row ∧ row < (c.scene rows selected).visibleRows.2) ↔
      c.bandTop row < c.viewport.height := by
  obtain ⟨-, ⟨below, low⟩, known, begins, ends⟩ := (hit?_eq_some_iff tall counted).1 hit
  have listed : rows ≠ [] := List.ne_nil_of_length_pos (loaded ▸ Nat.zero_lt_of_lt known)
  have room : max (c.viewport.height - c.geometry.headerHeight) 0 =
      c.viewport.height - c.geometry.headerHeight := max_eq_left (by linarith)
  have top : c.bandTop row = c.geometry.headerHeight + row * c.geometry.rowHeight - c.scrollTop := rfl
  rw [visible_iff tall selected within loaded counted listed, room]
  rw [top] at begins ends ⊢
  constructor
  · rintro ⟨-, above, -⟩
    linarith
  · intro above
    exact ⟨known, by linarith, by linarith⟩

end

/-- A row that is hit is visible, except on the lower edge of the viewport, where the band of the row only begins. -/
theorem hit?_visible_but_edge (chart : Chart ℝ) (limits : ZoomLimits ℝ) (interval : ℕ)
    (gestures : List (Gesture ℝ)) (valid : chart.geometry.fault? = none) (rows : List Row)
    (selected : Option String) :
    let c := (new chart limits interval).performAll gestures
    let visible := (c.scene rows selected).visibleRows
    rows.length = c.rowCount → rows.length < 2 ^ 64 → ∀ x y,
      (c.hover x y).1.hovered = c.hit? x y ∧
        (c.click x y rows).2 = (c.hit? x y).bind (fun row => rows[row]?) ∧
        ∀ row, (c.hit? x y = some row ↔
            (0 ≤ x ∧ x ≤ c.viewport.width) ∧
              (c.geometry.headerHeight ≤ y ∧ y ≤ c.viewport.height) ∧
              row < rows.length ∧ c.bandTop row ≤ y ∧ y < c.bandTop row + c.geometry.rowHeight) ∧
          (c.hit? x y = some row →
            (¬ (visible.1 ≤ row ∧ row < visible.2) ↔
              y = c.viewport.height ∧ c.bandTop row = c.viewport.height)) := by
  intro c visible loaded counted x y
  have chart_eq : c.chart = chart := chart_performAll _ gestures
  have tall : 0 < c.geometry.rowHeight := by
    rw [geometry, chart_eq]
    exact Geometry.rowHeight_pos valid
  have within : c.ScrolledWithin := (scrolledWithin_new chart limits interval).performAll gestures
  have few : c.rowCount < 2 ^ 64 := loaded ▸ counted
  refine ⟨c.hovered_hover x y, c.click_snd x y rows, fun row => ⟨?_, fun hit => ?_⟩⟩
  · rw [hit?_eq_some_iff tall few, loaded]
  · obtain ⟨-, ⟨-, low⟩, -, above, -⟩ := (hit?_eq_some_iff tall few).1 hit
    rw [visible_iff_of_hit? tall selected within loaded few hit, not_lt]
    constructor
    · exact fun beyond => ⟨low.antisymm (beyond.trans above), (above.trans low).antisymm beyond⟩
    · exact fun edge => edge.2.ge

noncomputable def threeRows (height : ℝ) : Controller ℝ :=
  (new ⟨.standard, default, []⟩ ⟨1, 100, 1.25⟩ 0).performAll [.resize ⟨816, height⟩, .load 3 3]

section

variable (height : ℝ)

theorem viewport_threeRows : (threeRows height).viewport = ⟨816, height⟩ :=
  viewport_resize _ _

theorem geometry_threeRows : (threeRows height).geometry = .standard :=
  congrArg Chart.geometry (chart_performAll _ _)

theorem scrollTop_threeRows : (threeRows height).scrollTop = 0 :=
  Scalar.real_zero

theorem maxScroll_threeRows (low : height ≤ 102) : (threeRows height).maxScroll = 102 - height := by
  have rowHeight : (Geometry.standard : Geometry ℝ).rowHeight = 24 := rfl
  have headerHeight : (Geometry.standard : Geometry ℝ).headerHeight = 30 := rfl
  have counted : (threeRows height).rowCount = 3 := rfl
  have content : (30 : ℝ) + (3 : ℕ) * 24 = 102 := by norm_num
  rw [maxScroll, Scalar.real_positive, Geometry.contentHeight, Scalar.real_max, Geometry.rowTop,
    Scalar.real_ofNat, geometry_threeRows, viewport_threeRows, counted, rowHeight, headerHeight,
    content, max_eq_left low, max_eq_left (sub_nonneg.2 low)]

variable {height} {c : Controller ℝ} (geometry : c.geometry = .standard)

include geometry

theorem bandTop_of_standard (row : ℕ) : c.bandTop row = 30 + row * 24 - c.scrollTop := by
  rw [bandTop, geometry]
  rfl

theorem hit?_of_standard (viewport : c.viewport = ⟨816, height⟩) (counted : c.rowCount = 3) {y : ℝ}
    {row : ℕ} (listed : row < 3) (below : 30 ≤ y) (low : y ≤ height)
    (band : 30 + row * 24 ≤ y + c.scrollTop ∧ y + c.scrollTop < 30 + (row + 1) * 24) :
    c.hit? 100 y = some row := by
  have rowHeight : c.geometry.rowHeight = 24 := geometry ▸ rfl
  have headerHeight : c.geometry.headerHeight = 30 := geometry ▸ rfl
  have tall : 0 < c.geometry.rowHeight := by
    rw [rowHeight]
    norm_num
  rw [hit?_eq_some_iff tall (by rw [counted]; decide), bandTop_of_standard geometry, viewport, counted,
    rowHeight, headerHeight]
  exact ⟨by norm_num, ⟨below, low⟩, listed, by linarith, by linarith⟩

end

-- A third of a row is scrolled away, so that the last one begins on the lower edge.
theorem hit?_visible_but_edge_scrolled :
    let c := (new (⟨.standard, default, []⟩ : Chart ℝ) ⟨1, 100, 1.25⟩ 0).performAll
      [.resize ⟨816, 70⟩, .load 3 3, .scrollTo 8]
    let rows : List Row := [⟨default, 0, 0⟩, ⟨default, 1, 1⟩, ⟨default, 2, 1⟩]
    let visible := (c.scene rows none).visibleRows
    (Geometry.standard : Geometry ℝ).fault? = none ∧ rows.length = c.rowCount ∧
      rows.length < 2 ^ 64 ∧ c.hit? 100 69 = some 1 ∧ (visible.1 ≤ 1 ∧ 1 < visible.2) ∧
      c.hit? 100 70 = some 2 ∧ ¬ (visible.1 ≤ 2 ∧ 2 < visible.2) := by
  intro c rows visible
  have next : c = { threeRows 70 with scrollTop := 8 }.requestRedraw := by
    change ((threeRows 70).scrollTo 8).1 = _
    rw [scrollTo_eq (by norm_num) (by rw [maxScroll_threeRows] <;> norm_num), moved, scrollTop_threeRows,
      if_neg (by norm_num)]
  have scroll : c.scrollTop = 8 := by rw [next]; rfl
  have counted : c.rowCount = 3 := by rw [next]; rfl
  have viewport : c.viewport = ⟨816, 70⟩ := by rw [next]; exact viewport_threeRows 70
  have geometry : c.geometry = .standard := by rw [next]; exact geometry_threeRows 70
  have second : c.hit? 100 69 = some 1 :=
    hit?_of_standard geometry viewport counted (by decide) (by norm_num) (by norm_num)
      (by rw [scroll]; norm_num)
  have third : c.hit? 100 70 = some 2 :=
    hit?_of_standard geometry viewport counted (by decide) (by norm_num) le_rfl
      (by rw [scroll]; norm_num)
  have hits := hit?_visible_but_edge ⟨.standard, default, []⟩ ⟨1, 100, 1.25⟩ 0
    [.resize ⟨816, 70⟩, .load 3 3, .scrollTo 8] Geometry.fault?_standard rows none counted.symm
    (by simp [rows])
  refine ⟨Geometry.fault?_standard, counted.symm, by simp [rows], second, ?_, third, ?_⟩
  · by_contra hidden
    have low : 69 = c.viewport.height := ((((hits 100 69).2.2 1).2 second).1 hidden).1
    rw [viewport] at low
    norm_num at low
  · have low : 70 = c.viewport.height := by rw [viewport]
    have edge : c.bandTop 2 = c.viewport.height := by
      rw [bandTop_of_standard geometry, viewport, scroll]
      norm_num
    exact (((hits 100 70).2.2 2).2 third).2 ⟨low, edge⟩

-- Two rows fill the body, and the pointer on the lower edge hits the third, of which nothing is drawn.
theorem hit?_hidden_row :
    let c := (new (⟨.standard, default, []⟩ : Chart ℝ) ⟨1, 100, 1.25⟩ 0).performAll
      [.resize ⟨816, 78⟩, .load 3 3]
    let rows : List Row := [⟨default, 0, 0⟩, ⟨default, 1, 1⟩, ⟨default, 2, 1⟩]
    let visible := (c.scene rows none).visibleRows
    (Geometry.standard : Geometry ℝ).fault? = none ∧ rows.length = c.rowCount ∧
      c.hit? 100 78 = some 2 ∧ ¬ (visible.1 ≤ 2 ∧ 2 < visible.2) := by
  intro c rows visible
  have geometry : c.geometry = .standard := geometry_threeRows 78
  have viewport : c.viewport = ⟨816, 78⟩ := viewport_threeRows 78
  have scroll : c.scrollTop = 0 := scrollTop_threeRows 78
  have tall : 0 < c.geometry.rowHeight := geometry ▸ Geometry.rowHeight_pos Geometry.fault?_standard
  have within : c.ScrolledWithin := (scrolledWithin_new _ _ _).performAll _
  have third : c.hit? 100 78 = some 2 :=
    hit?_of_standard geometry viewport rfl (by decide) (by norm_num) le_rfl (by rw [scroll]; norm_num)
  refine ⟨Geometry.fault?_standard, rfl, third, ?_⟩
  rw [visible_iff_of_hit? tall none within rfl (by decide) third, bandTop_of_standard geometry, viewport,
    scroll]
  norm_num

end Controller

end Waterfall
