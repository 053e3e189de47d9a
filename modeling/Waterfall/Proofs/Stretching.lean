import Waterfall.Proofs.Window

set_option autoImplicit false

namespace Waterfall

namespace Scale

theorem Forward.apply_eq {s : Scale ℝ} (forward : s.Forward) (micros : ℝ) :
    s.apply micros = s.range.1 +
      (micros - s.domain.1) / (s.domain.2 - s.domain.1) * (s.range.2 - s.range.1) := by
  rw [apply, if_neg]
  simpa using forward.domain.ne'

section

variable {base : Scale ℝ} {z : Zoom ℝ} (forward : base.Forward) (stretched : 0 < z.k)

include forward stretched

theorem Forward.rescale : (z.rescale base).Forward where
  domain := by
    refine sub_pos.1 ?_
    rw [Zoom.rescale_width forward stretched]
    exact div_pos (sub_pos.2 forward.domain) stretched
  range := forward.range

theorem Forward.apply_rescale (micros : ℝ) :
    (z.rescale base).apply micros = z.k * base.apply micros + z.x := by
  have window : 0 < base.domain.2 - base.domain.1 := sub_pos.2 forward.domain
  have room : 0 < base.range.2 - base.range.1 := sub_pos.2 forward.range
  have start : (z.rescale base).domain.1 = base.domain.1 +
      ((base.range.1 - z.x) / z.k - base.range.1) / (base.range.2 - base.range.1) *
        (base.domain.2 - base.domain.1) := forward.invert_eq _
  have kept : (z.rescale base).range = base.range := rfl
  rw [(forward.rescale stretched).apply_eq, Zoom.rescale_width forward stretched, start, kept,
    forward.apply_eq]
  field_simp
  ring

end

end Scale

namespace Chart

section

variable {α : Type} [Scalar α] (c : Chart α) (f : Frame α)

def tickMarks : List (Mark α) :=
  marks c.geometry f.viewport f.scale (f.scale.ticks (tickCount c.geometry f.viewport))

def headerTicks : List (Shape α) :=
  (c.tickMarks f).flatMap
    (c.tickShapes f.viewport (f.scale.ticks (tickCount c.geometry f.viewport)).step)

def gridTicks : List (Shape α) :=
  (c.tickMarks f).map fun (_, x) =>
    .line x c.geometry.headerHeight x f.viewport.height c.palette.border

def rowLabels (row : Row) : List (Shape α) :=
  let g := c.geometry
  let top := g.rowTop row.index
  let middle := top + g.rowHeight / 2
  let width := f.viewport.width
  (match c.highlight? f row with
    | some fill => [.rect 0 top width g.rowHeight fill]
    | none => [])
    ++ (if g.rowDividers then
      [.line 0 (top + g.rowHeight) width (top + g.rowHeight) c.palette.border]
    else [])
    ++ [.dot (dotX g row) middle g.dotRadius (c.colors.colorOf row.span.service row.span.status)]
    ++ c.nameShapes row middle
    ++ [.text (durationX g) middle (Label.duration row.span.duration) c.palette.muted .finish false]

/-- The scene of a frame with the given ticks in the header and in the grid, and with the given bars. The
scale of the frame has no part in it. -/
def drawn (headerTicks gridTicks : List (Shape α)) (bar : Row → List (Shape α)) : Scene α :=
  if f.rows.isEmpty then .message f.viewport c.palette emptyMessage
  else
    let g := c.geometry
    let contentHeight := g.contentHeight f.rows.length f.viewport.height
    let scrollTop := Scalar.clamp f.scrollTop 0 (Scalar.positive (contentHeight - f.viewport.height))
    let visible := g.visibleRows f.rows.length f.viewport scrollTop
    { viewport := f.viewport
      background := c.palette.background
      foreground := c.palette.foreground
      header :=
        [.rect 0 0 f.viewport.width g.headerHeight c.palette.background,
          .text g.labelPadding ((g.headerHeight - g.tickLength) / 2) "Span" c.palette.muted .start true]
          ++ headerTicks
          ++ [.line 0 g.headerHeight f.viewport.width g.headerHeight c.palette.border]
      grid := gridTicks ++ [.line g.labelGutter 0 g.labelGutter f.viewport.height c.palette.border]
      rows := (slice f.rows visible).flatMap fun row => c.rowLabels f row ++ bar row
      bodyTop := g.headerHeight
      contentHeight := contentHeight
      scrollTop := scrollTop
      visibleRows := visible }

theorem scene_eq_drawn :
    c.scene f = c.drawn f (c.headerTicks f) (c.gridTicks f)
      (fun row => c.barShapes f row (c.geometry.rowTop row.index)) := rfl

theorem drawn_scale (scale : Scale α) : c.drawn { f with scale := scale } = c.drawn f := rfl

end

section

variable (c : Chart ℝ) (f : Frame ℝ)

/-- The bar of a row with both of its edges moved by a zoom, as far as it lies behind the labels. -/
noncomputable def movedBar (base : Scale ℝ) (z : Zoom ℝ) (row : Row) : List (Shape ℝ) :=
  let g := c.geometry
  let p := base.apply row.span.start.toNat
  let q := base.apply row.span.finish.toNat
  let left := max (z.k * p + z.x) g.labelGutter
  if left < f.viewport.width then
    [.rect left (g.rowTop row.index + g.barInset) (max (max (z.k * q + z.x) left - left) g.minBarWidth)
      (g.rowHeight - 2 * g.barInset) (c.colors.colorOf row.span.service row.span.status)]
  else []

theorem barShapes_rescale {base : Scale ℝ} (forward : base.Forward) {z : Zoom ℝ} (stretched : 0 < z.k)
    (row : Row) :
    c.barShapes { f with scale := z.rescale base } row (c.geometry.rowTop row.index) =
      c.movedBar f base z row := by
  simp only [barShapes, movedBar, Scalar.real_ofNat, Scalar.real_max,
    forward.apply_rescale stretched]

/-- Two scenes of one frame under two zooms differ in the ticks and the bars alone, and each zoom moves both edges of
a bar as it moves places. -/
theorem scene_stretched (extent : UInt64) (left right : ℝ) (z z' : Zoom ℝ) (stretched : 1 ≤ z.k)
    (stretched' : 1 ≤ z'.k) :
    let base := Scale.base extent left right
    let zoomed := { f with scale := z.rescale base }
    let zoomed' := { f with scale := z'.rescale base }
    c.scene zoomed = c.drawn f (c.headerTicks zoomed) (c.gridTicks zoomed) (c.movedBar f base z) ∧
      c.scene zoomed' = c.drawn f (c.headerTicks zoomed') (c.gridTicks zoomed') (c.movedBar f base z') := by
  intro base zoomed zoomed'
  have forward : base.Forward := Scale.forward_base extent left right
  have moved {z : Zoom ℝ} (stretched : 1 ≤ z.k) :
      (fun row => c.barShapes { f with scale := z.rescale base } row (c.geometry.rowTop row.index)) =
        c.movedBar f base z :=
    funext (c.barShapes_rescale f forward (one_pos.trans_le stretched))
  refine ⟨?_, ?_⟩
  · rw [scene_eq_drawn, drawn_scale, moved stretched]
  · rw [scene_eq_drawn, drawn_scale, moved stretched']

end

-- At twice the size around the left end, the bar is twice as far from there and twice as wide.
theorem scene_stretched_twofold :
    let c : Chart ℝ := ⟨.standard, default, []⟩
    let row : Row := ⟨{ (default : Span) with start := 100, duration := 200 }, 0, 0⟩
    let f : Frame ℝ :=
      { rows := [row], scale := ⟨(0, 1), (0, 1)⟩, selected := none, hovered := none
        viewport := ⟨1216, 400⟩, scrollTop := 0 }
    let base := Scale.base 1000 200 1200
    let whole := { f with scale := Zoom.rescale ⟨1, 0⟩ base }
    let zoomed := { f with scale := Zoom.rescale ⟨2, -200⟩ base }
    let color := c.colors.colorOf row.span.service row.span.status
    c.scene whole = c.drawn f (c.headerTicks whole) (c.gridTicks whole) (c.movedBar f base ⟨1, 0⟩) ∧
      c.movedBar f base ⟨1, 0⟩ row = [.rect 300 35 200 14 color] ∧
      c.scene zoomed = c.drawn f (c.headerTicks zoomed) (c.gridTicks zoomed) (c.movedBar f base ⟨2, -200⟩) ∧
      c.movedBar f base ⟨2, -200⟩ row = [.rect 400 35 400 14 color] := by
  intro c row f base whole zoomed color
  obtain ⟨drawn, drawn'⟩ := c.scene_stretched f 1000 200 1200 ⟨1, 0⟩ ⟨2, -200⟩ le_rfl one_le_two
  have forward : base.Forward := Scale.forward_base 1000 200 1200
  have place (n : ℕ) : base.apply n = 200 + n := by
    have extent : (1000 : UInt64).toNat = 1000 := rfl
    have ends : base = ⟨(0, 1000), (200, 1200)⟩ := by
      simp only [base, Scale.base, Scale.minWindow, Scalar.real_zero, Scalar.real_one, Scalar.real_max,
        Scalar.real_ofNat, extent]
      norm_num
    rw [forward.apply_eq, ends]
    norm_num
  have start : base.apply row.span.start.toNat = 300 := (place 100).trans (by norm_num)
  have finish : base.apply row.span.finish.toNat = 500 := (place 300).trans (by norm_num)
  have top : c.geometry.rowTop row.index = 30 := by
    change (30 : ℝ) + (0 : ℕ) * 24 = 30
    norm_num
  have gutter : c.geometry.labelGutter = 200 := rfl
  have inset : c.geometry.barInset = 5 := rfl
  have least : c.geometry.minBarWidth = 3 := rfl
  have rowHeight : c.geometry.rowHeight = 24 := rfl
  have width : f.viewport.width = 1216 := rfl
  refine ⟨drawn, ?_, drawn', ?_⟩
  · simp only [movedBar, start, finish, top, gutter, inset, least, rowHeight, width]
    norm_num [color]
  · simp only [movedBar, start, finish, top, gutter, inset, least, rowHeight, width]
    norm_num [color]

end Chart

end Waterfall
