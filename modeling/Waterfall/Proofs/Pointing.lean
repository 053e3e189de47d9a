import Waterfall.Proofs.Alignment
import Waterfall.Proofs.Hits
import Waterfall.Proofs.Layout
import Waterfall.Proofs.Painting

set_option autoImplicit false

namespace Waterfall

open Terminal

theorem Chart.mem_slice {rows : List Row} {range : ℕ × ℕ} {row : Row} :
    row ∈ slice rows range ↔ ∃ i, (range.1 ≤ i ∧ i < range.2) ∧ rows[i]? = some row := by
  simp only [slice, List.mem_iff_getElem?, List.getElem?_drop, List.getElem?_take]
  constructor
  · rintro ⟨i, found⟩
    split at found
    next before => exact ⟨range.1 + i, ⟨Nat.le_add_right _ _, before⟩, found⟩
    next => cases found
  · rintro ⟨i, ⟨after, before⟩, found⟩
    refine ⟨i - range.1, ?_⟩
    rw [Nat.add_sub_cancel' after, if_pos before, found]

namespace Controller

section

variable {c : Controller ℝ} {labelWidth : ℕ} {rows : List Row} {selected : Option String}

theorem Whole.tall (whole : c.Whole labelWidth) : 0 < c.geometry.rowHeight :=
  whole.geometry ▸ (Geometry.rowHeight_terminal labelWidth).symm ▸ one_pos

theorem Whole.scrolledWithin (whole : c.Whole labelWidth) : c.ScrolledWithin := by
  obtain ⟨n, scroll⟩ := whole.scroll
  have unmoved : 0 ≤ c.scrollTop := scroll ▸ n.cast_nonneg
  exact fun _ => ⟨Scalar.real_zero.trans_le unmoved, whole.bounded⟩

-- The scroll offset is within its bounds, so that the scene takes it as it is.
theorem Whole.scene_eq (whole : c.Whole labelWidth) (counted : c.rowCount = rows.length)
    (listed : rows ≠ []) (selected : Option String) :
    (c.scene rows selected).scrollTop = c.scrollTop ∧
      (c.scene rows selected).bodyTop = (2 : ℕ) := by
  refine ⟨(c.scrollTop_scene selected listed counted.symm).trans whole.scrolledWithin.clamp_eq, ?_⟩
  rw [c.bodyTop_scene selected listed, whole.geometry]
  rfl

theorem Whole.visible_iff (whole : c.Whole labelWidth) (counted : c.rowCount = rows.length)
    (fits : rows.length < 2 ^ 64) (listed : rows ≠ []) {n width height : ℕ} (scroll : c.scrollTop = n)
    (viewport : c.viewport = ⟨width, height⟩) {i : ℕ} :
    ((c.scene rows selected).visibleRows.1 ≤ i ∧ i < (c.scene rows selected).visibleRows.2) ↔
      i < rows.length ∧ i < n + (height - 2) ∧ n < i + 1 := by
  have body : max ((height : ℝ) - 2) 0 = (height - 2 : ℕ) := by
    obtain short | tall := le_total height 2
    · rw [Nat.sub_eq_zero_of_le short, Nat.cast_zero, max_eq_right]
      exact sub_nonpos.2 (by exact_mod_cast short)
    · rw [Nat.cast_sub tall, Nat.cast_ofNat, max_eq_left]
      exact sub_nonneg.2 (by exact_mod_cast tall)
  rw [Controller.visible_iff whole.tall selected whole.scrolledWithin counted.symm (counted ▸ fits) listed,
    counted, whole.geometry, Geometry.rowHeight_terminal, Geometry.headerHeight_terminal, viewport, scroll,
    body, mul_one, mul_one]
  norm_cast

theorem Whole.mem_scene_rows (whole : c.Whole labelWidth) (counted : c.rowCount = rows.length)
    (fits : rows.length < 2 ^ 64) {n width height : ℕ} (scroll : c.scrollTop = n)
    (viewport : c.viewport = ⟨width, height⟩) {shape : Shape ℝ} :
    shape ∈ (c.scene rows selected).rows ↔
      ∃ i row, rows[i]? = some row ∧ n ≤ i ∧ i < n + (height - 2) ∧
        shape ∈ c.chart.rowShapes (c.frame rows selected) row := by
  by_cases listed : rows = []
  · subst listed
    constructor
    · intro member
      cases member
    · rintro ⟨i, row, found, -⟩
      cases found
  · have drawn : (c.scene rows selected).rows =
        (Chart.slice rows (c.scene rows selected).visibleRows).flatMap
          (c.chart.rowShapes (c.frame rows selected)) :=
      c.chart.rows_scene (f := c.frame rows selected) listed
    simp only [drawn, List.mem_flatMap, Chart.mem_slice,
      whole.visible_iff counted fits listed scroll viewport]
    constructor
    · rintro ⟨row, ⟨i, ⟨-, before, after⟩, found⟩, member⟩
      exact ⟨i, row, found, Nat.lt_succ_iff.1 after, before, member⟩
    · rintro ⟨i, row, found, after, before, member⟩
      have inside := (List.getElem?_eq_some_iff.1 found).1
      exact ⟨row, ⟨i, ⟨inside, before, Nat.lt_succ_iff.2 after⟩, found⟩, member⟩

theorem Whole.hit?_eq (whole : c.Whole labelWidth) (counted : c.rowCount < 2 ^ 64)
    {n width height : ℕ} (scroll : c.scrollTop = n) (viewport : c.viewport = ⟨width, height⟩)
    {column line : ℕ} (inside : column < width) (below : 2 ≤ line) (above : line < height) :
    c.hit? (Scalar.ofNat column + 0.5) (Scalar.ofNat line + 0.5) =
      if line - 2 + n < c.rowCount then some (line - 2 + n) else none := by
  have left : (0 : ℝ) ≤ column := column.cast_nonneg
  have right : (column : ℝ) + 1 ≤ width := by exact_mod_cast inside
  have high : (2 : ℝ) ≤ line := by exact_mod_cast below
  have low : (line : ℝ) + 1 ≤ height := by exact_mod_cast above
  have rowHeight : c.geometry.rowHeight = 1 := whole.geometry ▸ Geometry.rowHeight_terminal labelWidth
  have headerHeight : c.geometry.headerHeight = 2 :=
    whole.geometry ▸ Geometry.headerHeight_terminal labelWidth
  have bandTop (row : ℕ) : c.bandTop row = 2 + row - n := by
    rw [Controller.bandTop, Geometry.rowTop, Scalar.real_ofNat, rowHeight, headerHeight, scroll, mul_one]
  -- The middle of a line lies on the band of one row only.
  have hit_iff (row : ℕ) : c.hit? (Scalar.ofNat column + 0.5) (Scalar.ofNat line + 0.5) = some row ↔
      row < c.rowCount ∧ row = line - 2 + n := by
    rw [hit?_eq_some_iff whole.tall counted, Scalar.real_half, Scalar.real_ofNat, Scalar.real_ofNat, viewport,
      headerHeight, rowHeight, bandTop]
    constructor
    · rintro ⟨-, -, listed, begins, ends⟩
      have first : 2 + row < line + 1 + n := by exact_mod_cast (by linarith : (2 : ℝ) + row < line + 1 + n)
      have last : line + n < 2 + row + 1 := by exact_mod_cast (by linarith : (line : ℝ) + n < 2 + row + 1)
      exact ⟨listed, by omega⟩
    · rintro ⟨listed, same⟩
      have sum : (row : ℝ) + 2 = line + n := by exact_mod_cast (by omega : row + 2 = line + n)
      exact ⟨⟨by linarith, by linarith⟩, ⟨by linarith, by linarith⟩, listed, by linarith, by linarith⟩
  split
  next known => exact (hit_iff _).2 ⟨known, rfl⟩
  next unknown =>
    refine Option.eq_none_iff_forall_ne_some.2 fun row hit => ?_
    obtain ⟨listed, rfl⟩ := (hit_iff row).1 hit
    exact unknown listed

end

end Controller

namespace App

def pick? {α : Type} [Scalar α] (a : App α) (t : ShownTrace) (column line : ℕ) : Option Row :=
  (a.timelinePoint? column line).bind fun (x, y) => (a.controller.click x y t.rows).2

/-- The timeline paints a shape of the row somewhere on the line. -/
def PaintsRow {α : Type} [Scalar α] (a : App α) (t : ShownTrace) (row : Row) (line : ℕ) : Prop :=
  ∃ shape ∈ a.controller.chart.rowShapes (a.controller.frame t.rows t.selected) row,
    shape ∈ (a.view.scene a.controller).rows ∧
      ∃ column, ((a.view.scene a.controller).rowLayer a.areas.timeline).Paints shape column line

theorem scene_of_shown {α : Type} [Scalar α] {a : App α} {t : ShownTrace}
    (shown : a.view = .shown t) :
    a.view.scene a.controller = a.controller.scene t.rows t.selected := by
  rw [shown]
  rfl

theorem timelinePoint?_of_contains {α : Type} [Scalar α] {a : App α} {column line : ℕ}
    (inside : a.areas.timeline.Contains column line) :
    a.timelinePoint? column line =
      some (Scalar.ofNat (column - a.areas.timeline.x) + 0.5,
        Scalar.ofNat (line - a.areas.timeline.y) + 0.5) :=
  if_pos inside

theorem mouse_press_view {α : Type} [Scalar α] {a : App α} {t : ShownTrace}
    (shown : a.view = .shown t) {column line : ℕ}
    (inside : a.areas.timeline.Contains column line) (modifiers : Modifiers) :
    (a.mouse ⟨.press, column, line, modifiers⟩).view =
      .shown ((a.pick? t column line).elim t fun row => t.select row.span.id) := by
  have shown? : a.view.shown? = some t := by rw [shown]; rfl
  have point := timelinePoint?_of_contains inside
  simp only [mouse, press, point, clickTimeline, shown?, pick?, Option.bind_some]
  cases (a.controller.click _ _ t.rows).2 with
  | none => exact shown
  | some row => rfl

section

variable {a : App ℝ} {labelWidth : ℕ} {t : ShownTrace}

theorem Aligned.getElem?_rows (aligned : Aligned labelWidth a) (shown : a.view = .shown t) {i : ℕ}
    {row : Row} (found : t.rows[i]? = some row) : row.index = i := by
  obtain ⟨-, d, traced⟩ := aligned.rows t shown
  change t.trace.rows[i]? = some row at found
  rw [traced] at found
  exact Row.index_eq_of_getElem? found

theorem Aligned.pick?_eq (aligned : Aligned labelWidth a) (shown : a.view = .shown t)
    (fits : t.rows.length < 2 ^ 64) {n : ℕ} (scroll : a.controller.scrollTop = n) {column line : ℕ}
    (inside : a.areas.timeline.Contains column line) (below : a.areas.timeline.y + 2 ≤ line) :
    a.pick? t column line = t.rows[line - a.areas.timeline.y - 2 + n]? := by
  have counted := (aligned.rows t shown).1
  have right : column - a.areas.timeline.x < a.areas.timeline.width := by
    simp only [Rect.Contains, Rect.right] at inside
    omega
  have above : line - a.areas.timeline.y < a.areas.timeline.height := by
    simp only [Rect.Contains, Rect.bottom] at inside
    omega
  have hit := aligned.whole.hit?_eq (counted ▸ fits) scroll aligned.viewport right
    (Nat.le_sub_of_add_le' below) above
  rw [pick?, timelinePoint?_of_contains inside, Option.bind_some]
  dsimp only
  rw [Controller.click_snd, hit, counted]
  split
  next => rfl
  next beyond => exact (List.getElem?_eq_none (not_lt.1 beyond)).symm

-- A row that is painted anywhere is painted on one line, which is as far below the header as the
-- row is below the first that is visible.
theorem Aligned.line_of_paintsRow (aligned : Aligned labelWidth a) (shown : a.view = .shown t)
    (fits : t.rows.length < 2 ^ 64) {n : ℕ} (scroll : a.controller.scrollTop = n) {row : Row}
    {line : ℕ} (paints : a.PaintsRow t row line) :
    n ≤ row.index ∧
      line = a.areas.timeline.y + min (row.index + 2 - n) (2 ^ 63 - 1) := by
  obtain ⟨shape, ofRow, inScene, column, painted⟩ := paints
  rw [scene_of_shown shown] at inScene painted
  have counted := (aligned.rows t shown).1
  have geometry := aligned.whole.geometry
  obtain ⟨i, row', found, after, -, member⟩ :=
    (aligned.whole.mem_scene_rows counted fits scroll aligned.viewport).1 inScene
  have between := a.controller.chart.between_of_mem_rowShapes _ row geometry ofRow
  have same := between.inj (a.controller.chart.between_of_mem_rowShapes _ row' geometry member)
  have index := aligned.getElem?_rows shown found
  have first : n ≤ row.index := by omega
  have listed : t.rows ≠ [] := List.ne_nil_of_mem (List.mem_of_getElem? found)
  have shift := (aligned.whole.scene_eq counted listed t.selected).1.trans scroll
  exact ⟨first, (between.line_of_paints shift (by omega) painted).1⟩

theorem Aligned.paintsRow (aligned : Aligned labelWidth a) (shown : a.view = .shown t)
    (fits : t.rows.length < 2 ^ 64) {n : ℕ} (scroll : a.controller.scrollTop = n) {row : Row}
    (found : t.rows[row.index]? = some row) (after : n ≤ row.index)
    (before : row.index + 2 - n < a.areas.timeline.height) (near : row.index + 2 - n < 2 ^ 63)
    (room : Chart.dotX (.terminal labelWidth) row < (a.areas.timeline.width : ℝ)) :
    a.PaintsRow t row (a.areas.timeline.y + (row.index + 2 - n)) := by
  have counted := (aligned.rows t shown).1
  have geometry := aligned.whole.geometry
  have dot := a.controller.chart.dot_mem_rowShapes (a.controller.frame t.rows t.selected) row
  have inScene := (aligned.whole.mem_scene_rows counted fits scroll aligned.viewport).2
    ⟨row.index, row, found, after, by omega, dot⟩
  have listed : t.rows ≠ [] := List.ne_nil_of_mem (List.mem_of_getElem? found)
  obtain ⟨shift, top⟩ := aligned.whole.scene_eq counted listed t.selected
  have bodyLine : (a.controller.scene t.rows t.selected).bodyLine = 2 := by
    rw [Scene.bodyLine, top, Scalar.real_ceil, Int.ceil_natCast, Int.cast_natCast,
      Scalar.toInt_natCast]
    rfl
  have between := a.controller.chart.between_of_mem_rowShapes _ row geometry dot
  have right : Chart.dotX a.controller.chart.geometry row = 2 * row.depth + 3 / 2 :=
    (congrArg (Chart.dotX · row) geometry).trans (Chart.dotX_terminal row labelWidth)
  have clear : 0 ≤ Chart.dotX a.controller.chart.geometry row := by
    rw [right]
    positivity
  have narrow : Chart.dotX a.controller.chart.geometry row < a.areas.timeline.width := by
    rwa [right, ← Chart.dotX_terminal row labelWidth]
  unfold PaintsRow
  rw [scene_of_shown shown]
  refine ⟨_, dot, inScene, ?_⟩
  refine Shape.dot_paints (shift.trans scroll) (by omega) between ?_ ?_ near clear narrow
  · change (a.controller.scene t.rows t.selected).bodyLine ≤ _
    omega
  · change _ < (a.areas.timeline.height : ℤ)
    omega

theorem Aligned.found_of_mem (aligned : Aligned labelWidth a) (shown : a.view = .shown t)
    {row : Row} (member : row ∈ t.rows) : t.rows[row.index]? = some row := by
  obtain ⟨i, found⟩ := List.mem_iff_getElem?.1 member
  rwa [aligned.getElem?_rows shown found]

theorem Aligned.pick?_eq_some_iff (aligned : Aligned labelWidth a) (shown : a.view = .shown t)
    (fits : t.rows.length < 2 ^ 64) {n : ℕ} (scroll : a.controller.scrollTop = n) {column line : ℕ}
    (inside : a.areas.timeline.Contains column line) (below : a.areas.timeline.y + 2 ≤ line)
    (row : Row) : a.pick? t column line = some row ↔
      row ∈ t.rows ∧ n ≤ row.index ∧ line = a.areas.timeline.y + (row.index + 2 - n) := by
  rw [aligned.pick?_eq shown fits scroll inside below]
  constructor
  · intro found
    have index := aligned.getElem?_rows shown found
    exact ⟨List.mem_of_getElem? found, by omega, by omega⟩
  · rintro ⟨member, after, same⟩
    have index : line - a.areas.timeline.y - 2 + n = row.index := by omega
    rw [index]
    exact aligned.found_of_mem shown member

end

end App

namespace Session

noncomputable def opened (ratio : Float32) (area : Rect) : Session ℝ :=
  run ⟨App.start (.new ⟨.terminal 36, Theme.dark.palette, .standard⟩ ⟨1, (100 : ℕ), 1.25⟩ 0)
      ⟨"", [], false⟩ 28 "" ratio, none, none⟩
    [.app (.layOut area), .app (.relist (.ok ["a"])), .answer (.ok (some {})), .drain]

def openedTrace : ShownTrace := ⟨"a", .ofDocument {}, none⟩

def openedRow : Row := ⟨(Span.ofDocument {}).head (by decide), 0, 0⟩

theorem rows_openedTrace : openedTrace.rows = [openedRow] := by
  change Row.ofSpans (Span.ofDocument {}) = _
  rw [Row.ofSpans, Row.places_of_preOrdered (Span.preOrdered_ofDocument {}) (by decide)]
  rfl

section

variable (ratio : Float32) (area : Rect)

theorem view_opened : (opened ratio area).app.view = .shown openedTrace := rfl

theorem aligned_opened : (opened ratio area).app.Aligned 36 :=
  aligned_run (App.aligned_start ..) _

-- The only row is picked on the first line below the header, where it is not scrolled away.
theorem pick?_opened {column : ℕ} (inside : (opened ratio area).app.areas.timeline.Contains column
    ((opened ratio area).app.areas.timeline.y + 2)) :
    (opened ratio area).app.pick? openedTrace column
      ((opened ratio area).app.areas.timeline.y + 2) = some openedRow := by
  have aligned := aligned_opened ratio area
  have shown := view_opened ratio area
  have counted := (aligned.rows _ shown).1
  rw [rows_openedTrace] at counted
  obtain ⟨n, scroll⟩ := aligned.whole.scroll
  have unscrolled : n = 0 := by
    have bounded := aligned.whole.bounded
    rw [scroll, Controller.maxScroll_terminal aligned.whole.geometry
      (congrArg Viewport.height aligned.viewport), counted, Nat.cast_le] at bounded
    simp only [Rect.Contains, Rect.bottom, List.length_singleton] at inside bounded
    omega
  have fits : openedTrace.rows.length < 2 ^ 64 := by
    rw [rows_openedTrace]
    decide
  rw [aligned.pick?_eq shown fits scroll inside le_rfl, rows_openedTrace, unscrolled]
  simp

end

/-- A click on a line below the header picks the row that is painted on it. A row whose dot lies beyond the right
edge may leave nothing to see there, and is picked nevertheless. -/
theorem picks_painted_row (labelWidth : ℕ) (palette : Palette) (colors : ColorTable)
    (limits : ZoomLimits ℝ) (interval : ℕ) (preferences : Preferences) (sidebarWidth : ℕ)
    (layoutId : String) (ratio : Float32) (events : List Event) :
    let a := (run ⟨App.start (.new ⟨.terminal labelWidth, palette, colors⟩ limits interval)
      preferences sidebarWidth layoutId ratio, none, none⟩ events).app
    let shows (row : Row) : Prop :=
      Chart.dotX (.terminal labelWidth) row < (a.areas.timeline.width : ℝ)
    (∃ n : ℕ, a.controller.scrollTop = n) ∧
      ∀ t, a.view = .shown t → t.rows.length < 2 ^ 64 →
        ∀ column line modifiers, a.areas.timeline.Contains column line →
          a.areas.timeline.y + 2 ≤ line → line < 2 ^ 16 →
            (a.mouse ⟨.press, column, line, modifiers⟩).view =
                .shown ((a.pick? t column line).elim t fun row => t.select row.span.id) ∧
              (∀ row, a.pick? t column line = some row →
                row ∈ t.rows ∧ ∀ other, a.PaintsRow t row other → other = line) ∧
              (∀ row ∈ t.rows, a.PaintsRow t row line → a.pick? t column line = some row) ∧
              (∀ row ∈ t.rows, shows row →
                (a.pick? t column line = some row ↔ a.PaintsRow t row line)) ∧
              ((∀ row ∈ t.rows, shows row) →
                (a.pick? t column line = none ↔ ∀ row ∈ t.rows, ¬ a.PaintsRow t row line)) := by
  intro a shows
  have aligned : App.Aligned labelWidth a := aligned_run (App.aligned_start ..) events
  obtain ⟨n, scroll⟩ := aligned.whole.scroll
  refine ⟨⟨n, scroll⟩, fun t shown fits column line modifiers inside below near => ?_⟩
  have pick_iff := aligned.pick?_eq_some_iff shown fits scroll inside below
  have picked_of_painted (row : Row) (member : row ∈ t.rows) (painted : a.PaintsRow t row line) :
      a.pick? t column line = some row := by
    obtain ⟨after, same⟩ := aligned.line_of_paintsRow shown fits scroll painted
    exact (pick_iff row).2 ⟨member, after, by omega⟩
  have painted_of_picked (row : Row) (room : shows row)
      (picked : a.pick? t column line = some row) : a.PaintsRow t row line := by
    obtain ⟨member, after, same⟩ := (pick_iff row).1 picked
    have found := aligned.found_of_mem shown member
    have above : line < a.areas.timeline.y + a.areas.timeline.height := inside.2.2.2
    rw [same]
    exact aligned.paintsRow shown fits scroll found after (by omega) (by omega) room
  refine ⟨App.mouse_press_view shown inside modifiers, fun row picked => ?_, picked_of_painted,
    fun row member room => ⟨painted_of_picked row room, picked_of_painted row member⟩,
    fun room => ⟨fun nothing row member painted => ?_, fun bare => ?_⟩⟩
  · obtain ⟨member, after, same⟩ := (pick_iff row).1 picked
    refine ⟨member, fun other painted => ?_⟩
    obtain ⟨-, there⟩ := aligned.line_of_paintsRow shown fits scroll painted
    omega
  · exact nomatch nothing.symm.trans (picked_of_painted row member painted)
  · cases picked : a.pick? t column line with
    | none => rfl
    | some row =>
      have member := ((pick_iff row).1 picked).1
      exact absurd (painted_of_picked row (room row member) picked) (bare row member)

theorem picks_painted_row_opened :
    let a := (opened 0.65 ⟨0, 0, 80, 24⟩).app
    ∃ t row, a.view = .shown t ∧ t.rows.length < 2 ^ 64 ∧ a.areas.timeline.Contains 29 3 ∧
      a.areas.timeline.y + 2 ≤ 3 ∧ a.pick? t 29 3 = some row ∧ a.PaintsRow t row 3 := by
  intro a
  have fits : openedTrace.rows.length < 2 ^ 64 := by
    rw [rows_openedTrace]
    decide
  have inside : a.areas.timeline.Contains 29 3 := by decide
  have below : a.areas.timeline.y + 2 ≤ 3 := by decide
  have picked := pick?_opened 0.65 ⟨0, 0, 80, 24⟩ inside
  have wide : a.areas.timeline.width = 32 := by decide
  have room : Chart.dotX (.terminal 36) openedRow < (a.areas.timeline.width : ℝ) := by
    rw [Chart.dotX_terminal, wide, openedRow]
    norm_num
  have member : openedRow ∈ openedTrace.rows := by
    rw [rows_openedTrace]
    exact List.mem_singleton_self _
  obtain ⟨-, all⟩ := picks_painted_row 36 Theme.dark.palette .standard ⟨1, (100 : ℕ), 1.25⟩ 0
    ⟨"", [], false⟩ 28 "" 0.65
    [.app (.layOut ⟨0, 0, 80, 24⟩), .app (.relist (.ok ["a"])), .answer (.ok (some {})), .drain]
  obtain ⟨-, -, -, painted, -⟩ := all _ (view_opened _ _) fits 29 3 {} inside below (by decide)
  exact ⟨_, _, view_opened _ _, fits, inside, below, picked, (painted _ member room).1 picked⟩

-- In a region with room for one column everything of the row lies beyond the edge: a click picks a
-- row of which nothing is painted anywhere.
theorem picks_row_out_of_sight :
    let a := (opened 0.1 ⟨0, 0, 58, 16⟩).app
    ∃ t row, a.view = .shown t ∧ row ∈ t.rows ∧ a.areas.timeline.Contains 29 3 ∧
      a.areas.timeline.y + 2 ≤ 3 ∧ a.pick? t 29 3 = some row ∧
      (∀ line, ¬ a.PaintsRow t row line) ∧
      (a.mouse ⟨.press, 29, 3, {}⟩).view = .shown (t.select row.span.id) := by
  intro a
  have aligned := aligned_opened 0.1 ⟨0, 0, 58, 16⟩
  have inside : a.areas.timeline.Contains 29 3 := by decide
  have one : a.areas.timeline.width = 1 := by decide
  have picked : a.pick? openedTrace 29 3 = some openedRow :=
    pick?_opened 0.1 ⟨0, 0, 58, 16⟩ inside
  refine ⟨openedTrace, openedRow, rfl, ?_, inside, by decide, picked, ?_, ?_⟩
  · rw [rows_openedTrace]
    exact List.mem_singleton_self _
  · rintro line ⟨shape, ofRow, -, column, painted⟩
    have narrow : a.controller.viewport.width = 1 := by
      refine (congrArg Viewport.width aligned.viewport).trans ?_
      change (a.areas.timeline.width : ℝ) = 1
      rw [one, Nat.cast_one]
    have thin : a.areas.timeline.width < 2 ^ 63 := by
      rw [one]
      decide
    have beyond : shape.Beyond 1 :=
      a.controller.chart.beyond_of_mem_rowShapes _ openedRow aligned.whole.geometry rfl narrow
        (by decide) ofRow
    rw [← one] at beyond
    exact Shape.not_paints_of_beyond beyond thin column line painted
  · have clicked := App.mouse_press_view (view_opened 0.1 ⟨0, 0, 58, 16⟩) inside {}
    rw [picked] at clicked
    exact clicked

end Session

end Waterfall
