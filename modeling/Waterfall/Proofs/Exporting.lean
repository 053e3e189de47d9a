import Waterfall.Export
import Waterfall.Proofs.Coverage
import Waterfall.Proofs.Layout
import Waterfall.Proofs.Limits
import Waterfall.Proofs.RoundedRows
import Waterfall.Proofs.ScrollRange

set_option autoImplicit false

namespace Waterfall

open Scalar (isNumber Ordered)

namespace Controller

theorem isNumber_scrollTo {c : Controller Float} (number : isNumber c.scrollTop = true) (top : Float) :
    isNumber (c.scrollTo top).1.scrollTop = isNumber top := by
  have clamped : isNumber (Scalar.clamp top 0 c.maxScroll) = isNumber top :=
    Ordered.isNumber_clamp (Ordered.positive_nonneg _)
  unfold scrollTo
  dsimp only
  split
  next near =>
    have apart := Ordered.isNumber_of_abs_lt near
    rw [number, ← clamped]
    by_contra none
    have nan : (Scalar.clamp top 0 c.maxScroll).isNaN = true := by
      rw [Double.isNumber_eq] at none
      simpa using none
    rw [Double.isNumber_eq, Bool.not_eq_true'] at apart
    cases apart.symm.trans (Double.isNaN_sub_left nan c.scrollTop)
  next => exact clamped

theorem height_resize {c : Controller Float} {size : Viewport Float} (chosen : size.height.isFinite = true)
    (before : c.viewport.height.isFinite = true) :
    (c.resize size).viewport.height.isFinite = true ∧
      Double.value (c.resize size).viewport.height = Double.value size.height := by
  unfold resize
  split
  next same =>
    rw [Bool.and_eq_true] at same
    exact ⟨before, ((Double.beq_iff_value chosen before).1 same.2).symm⟩
  next => exact ⟨chosen, rfl⟩

theorem chart_resize {α : Type} [Scalar α] (c : Controller α) (size : Viewport α) :
    (c.resize size).chart = c.chart := by
  unfold resize
  split
  next => rfl
  next => rfl

end Controller

theorem Viewport.height_ofSize (width height : ℕ) (narrow : height < 2 ^ 53) :
    (Viewport.ofSize (Double.nearest width) (Double.nearest height)).height.isFinite = true ∧
      Double.value (Viewport.ofSize (Double.nearest width) (Double.nearest height)).height = height := by
  obtain ⟨finite, same⟩ := Double.nearest_of_lt narrow
  obtain ⟨finite', kept⟩ := Double.positive_exact finite
  refine ⟨finite', ?_⟩
  change Double.value (Scalar.positive (Double.nearest height)) = height
  rw [kept, same]
  exact max_eq_left height.cast_nonneg

namespace Picture

structure Posed (p : Picture) (s : Settings) (rowCount : ℕ) (c : Controller Float) : Prop where
  chart : c.chart = s.chart
  rowCount : c.rowCount = rowCount
  within : c.ScrolledWithin
  number : isNumber c.scrollTop = !p.scroll.isNaN
  height : p.height < 2 ^ 53 →
    c.viewport.height.isFinite = true ∧ Double.value c.viewport.height = p.height

theorem posed_controller (p : Picture) (s : Settings) (rowCount : ℕ) (extent : UInt64) :
    p.Posed s rowCount (p.controller s rowCount extent) := by
  let size := Viewport.ofSize (Double.nearest p.width) (Double.nearest p.height)
  let fresh := Controller.new s.chart s.zoom s.frameInterval
  let loaded := (fresh.resize size).load rowCount extent
  let zoomed := if p.zoom == 1 then loaded
    else (loaded.zoomAt (loaded.scale.apply p.anchor.toFloat) p.zoom).1
  have still : (zoomed.chart = loaded.chart ∧ zoomed.viewport = loaded.viewport ∧
      zoomed.rowCount = loaded.rowCount) ∧ zoomed.scrollTop = loaded.scrollTop := by
    simp only [zoomed]
    split
    next => exact ⟨⟨rfl, rfl, rfl⟩, rfl⟩
    next =>
      have effect := loaded.effect_zoomAt (loaded.scale.apply p.anchor.toFloat) p.zoom
      exact ⟨effect.layout_eq, effect.scrollTop_eq⟩
  obtain ⟨⟨chart, viewport, counted⟩, unmoved⟩ := still
  have top : zoomed.scrollTop = 0 := unmoved
  have effect := zoomed.effect_scrollTo p.scroll
  obtain ⟨chart', viewport', counted'⟩ := effect.layout_eq
  change p.Posed s rowCount (zoomed.scrollTo p.scroll).1
  refine ⟨chart'.trans (chart.trans (fresh.chart_resize size)), counted'.trans counted,
    (Controller.scrolledWithin_of_zero top).effect effect, ?_, fun narrow => ?_⟩
  · rw [Controller.isNumber_scrollTo (by rw [top]; exact Ordered.number_zero), Double.isNumber_eq]
  · obtain ⟨finite, same⟩ := Viewport.height_ofSize p.width p.height narrow
    obtain ⟨finite', kept⟩ := fresh.height_resize finite (show (0 : Float).isFinite = true by decide)
    rw [viewport', viewport]
    exact ⟨finite', kept.trans same⟩

section

variable {p : Picture} {s : Settings} {rowCount : ℕ} {c : Controller Float} (posed : p.Posed s rowCount c)

include posed

theorem Posed.within_iff : 0 ≤ c.scrollTop ∧ c.scrollTop ≤ c.maxScroll ↔ p.scroll.isNaN = false := by
  rw [← Bool.not_eq_true', ← posed.number]
  constructor
  · rintro ⟨above, -⟩
    exact (Ordered.number_of_le above).2
  · intro number
    have within := posed.within number
    rwa [Double.scalar_zero] at within

theorem Posed.inProportion (accepted : s.fault? = none) (finite_row : s.geometry.rowHeight.isFinite = true)
    (finite_header : s.geometry.headerHeight.isFinite = true) (screen : p.height < 2 ^ 32)
    (listed : 1 ≤ rowCount) (word : rowCount < 2 ^ 64) (room : s.geometry.headerHeight < c.viewport.height)
    (reach : Double.value s.geometry.headerHeight + rowCount * Double.value s.geometry.rowHeight ≤
      2 ^ 50 * (Double.value c.viewport.height - Double.value s.geometry.headerHeight)) :
    c.geometry.InProportion rowCount c.viewport.height := by
  have zero : (0 : Float).isFinite = true := by decide
  obtain ⟨-, -, -, -, sizes, -⟩ := Settings.fault?_eq_none_iff.1 accepted
  obtain ⟨row, ⟨header, -, -⟩, -⟩ := Geometry.fault?_eq_none_iff.1 sizes
  rw [Double.scalar_zero, Double.le_iff_value finite_row zero] at row
  rw [Double.scalar_zero, Double.lt_iff_value finite_header zero] at header
  obtain ⟨finite_height, height⟩ := posed.height (screen.trans (by decide))
  rw [Double.lt_iff_value finite_header finite_height, height] at room
  have geometry : c.geometry = s.geometry := congrArg Chart.geometry posed.chart
  rw [geometry]
  exact
    { finite_row := finite_row
      finite_header := finite_header
      finite_height := finite_height
      row := not_le.1 row
      header := not_lt.1 header
      body := by rw [height]; exact Double.apart_of_lt finite_header (not_lt.1 header) room
      screen := by rw [height]; exact_mod_cast screen.le
      listed := listed
      word := word
      reach := reach }

theorem Posed.some_visible (proportion : c.geometry.InProportion rowCount c.viewport.height)
    (number : p.scroll.isNaN = false) :
    (c.geometry.visibleRows rowCount c.viewport c.scrollTop).1 <
      (c.geometry.visibleRows rowCount c.viewport c.scrollTop).2 := by
  obtain ⟨above, below⟩ := posed.within_iff.2 number
  have zero : (0 : Float).isFinite = true := by decide
  obtain ⟨finite_most, most⟩ := proportion.hidden
  rw [← posed.rowCount] at finite_most most
  have finite : c.scrollTop.isFinite = true := Double.isFinite_of_between zero finite_most above below
  have unmoved : 0 ≤ Double.value c.scrollTop := (Double.le_iff_value zero finite).1 above
  have least : Double.value c.scrollTop ≤ Double.value c.maxScroll :=
    (Double.le_iff_value finite finite_most).1 below
  refine proportion.some_visible finite unmoved (most.imp (fun none => ?_) fun part => ?_) rfl
  · exact le_antisymm (least.trans none.le) unmoved
  · exact posed.rowCount ▸ least.trans part

end

end Picture

namespace Trace

section

variable (t : Trace) (s : Settings) (p : Picture)

theorem viewport_picture : (t.picture s p).viewport = (p.controller s t.rows.length t.extent).viewport :=
  Controller.viewport_scene _ _

variable (listed : t.rows ≠ [])

include listed

theorem scrollTop_picture :
    (t.picture s p).scrollTop = (p.controller s t.rows.length t.extent).scrollTop := by
  have posed := p.posed_controller s t.rows.length t.extent
  rw [picture, Controller.scrollTop_scene _ p.selected listed posed.rowCount.symm, posed.within.clamp_eq]

theorem maxScroll_picture :
    (t.picture s p).maxScroll = (p.controller s t.rows.length t.extent).maxScroll := by
  have posed := p.posed_controller s t.rows.length t.extent
  rw [picture, Controller.maxScroll_scene _ p.selected listed posed.rowCount.symm]

theorem visibleRows_picture :
    (t.picture s p).visibleRows =
      let c := p.controller s t.rows.length t.extent
      c.geometry.visibleRows t.rows.length c.viewport c.scrollTop := by
  have posed := p.posed_controller s t.rows.length t.extent
  have visible := Controller.visibleRows_scene (p.controller s t.rows.length t.extent) p.selected listed
    posed.rowCount.symm
  rwa [← picture, scrollTop_picture t s p listed, posed.rowCount] at visible

end

/-- A picture is scrolled within its range exactly if the offset asked for is a number. -/
theorem picture_scrolled_within (d : Document) (s : Settings) (p : Picture) (accepted : s.fault? = none)
    (finite_row : s.geometry.rowHeight.isFinite = true)
    (finite_header : s.geometry.headerHeight.isFinite = true) (screen : p.height < 2 ^ 32) :
    let t := ofDocument d
    let scene := t.picture s p
    let header := Double.value s.geometry.headerHeight
    let body := Double.value scene.viewport.height - header
    (0 ≤ scene.scrollTop ∧ scene.scrollTop ≤ scene.maxScroll ↔ p.scroll.isNaN = false) ∧
      (p.scroll.isNaN = false → s.geometry.headerHeight < scene.viewport.height → t.rows.length < 2 ^ 64 →
        header + t.rows.length * Double.value s.geometry.rowHeight ≤ 2 ^ 50 * body →
        scene.visibleRows.1 < scene.visibleRows.2) := by
  intro t scene header body
  have posed := p.posed_controller s t.rows.length t.extent
  have counted : 1 ≤ t.rows.length := one_le_length_rows d
  have listed : t.rows ≠ [] := List.length_pos_iff.1 counted
  have scrolled : scene.scrollTop = _ := scrollTop_picture t s p listed
  have most : scene.maxScroll = _ := maxScroll_picture t s p listed
  have visible : scene.visibleRows = _ := visibleRows_picture t s p listed
  have viewport : scene.viewport = _ := viewport_picture t s p
  refine ⟨by rw [scrolled, most]; exact posed.within_iff, fun number room word reach => ?_⟩
  simp only [body, viewport] at reach
  rw [viewport] at room
  rw [visible]
  exact posed.some_visible
    (posed.inProportion accepted finite_row finite_header screen counted word room reach) number

-- An infinite offset is one of the last row.
theorem picture_scrolled_within_last :
    let d : Document := { phases := [{ name := "global" }, { name := "project" }] }
    let s : Settings := {}
    let p : Picture := { height := 60, zoom := 0 / 0, scroll := 1 / 0 }
    let scene := (ofDocument d).picture s p
    s.fault? = none ∧ p.scroll.isNaN = false ∧ s.geometry.headerHeight < scene.viewport.height ∧
      0 ≤ scene.scrollTop ∧ scene.scrollTop ≤ scene.maxScroll ∧
      scene.visibleRows.1 < scene.visibleRows.2 := by
  intro d s p scene
  have accepted : s.fault? = none := by decide +kernel
  obtain ⟨within, visible⟩ := picture_scrolled_within d s p accepted (by decide) (by decide) (by decide)
  have number : p.scroll.isNaN = false := by decide
  have listed : (ofDocument d).rows.length = 3 := (length_rows _).trans (by decide +kernel)
  have viewport : scene.viewport = _ := viewport_picture (ofDocument d) s p
  have posed := p.posed_controller s (ofDocument d).rows.length (ofDocument d).extent
  obtain ⟨finite, height⟩ := posed.height (by decide)
  rw [← viewport] at finite height
  have header : s.geometry.headerHeight = Double.nearest 30 := by decide
  have row : s.geometry.rowHeight = Double.nearest 24 := by decide
  have room : s.geometry.headerHeight < scene.viewport.height := by
    rw [Double.lt_iff_value (by decide) finite, header, (Double.nearest_of_lt (by decide)).2, height]
    norm_num [p]
  obtain ⟨above, below⟩ := within.2 number
  refine ⟨accepted, number, room, above, below, visible number room ?_ ?_⟩
  · rw [listed]
    decide
  · change _ ≤ 2 ^ 50 * (Double.value scene.viewport.height - Double.value s.geometry.headerHeight)
    rw [height, header, row, listed, (Double.nearest_of_lt (by decide)).2, (Double.nearest_of_lt (by decide)).2]
    norm_num [p]

-- An offset that is no number shows none of the rows, and neither does the end of two rows so high that
-- the body gets lost beside them.
theorem picture_shows_none :
    let t := ofDocument { phases := [{ name := "global" }] }
    let s : Settings := {}
    let scene := t.picture s { scroll := 0 / 0 }
    let high : Settings := { geometry := { Geometry.standard with rowHeight := 1e20 } }
    let last := t.picture high { height := 31, scroll := 1e20 }
    s.fault? = none ∧ s.geometry.headerHeight < scene.viewport.height ∧ ¬ 0 ≤ scene.scrollTop ∧
      scene.visibleRows = (0, 0) ∧
      high.fault? = none ∧ high.geometry.headerHeight < last.viewport.height ∧
      0 ≤ last.scrollTop ∧ last.scrollTop ≤ last.maxScroll ∧ last.visibleRows = (1, 1) := by
  intro t s scene high last
  have counted : t.rows.length = 2 := (length_rows _).trans (by decide +kernel)
  have listed : t.rows ≠ [] := by
    rw [← List.length_pos_iff, counted]
    decide
  simp only [scene, last, viewport_picture, scrollTop_picture t _ _ listed, maxScroll_picture t _ _ listed,
    visibleRows_picture t _ _ listed, counted]
  decide +kernel

end Trace

end Waterfall
