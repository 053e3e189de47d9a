import Waterfall.Label
import Waterfall.Row
import Waterfall.Scale
import Waterfall.Scene

set_option autoImplicit false

namespace Waterfall

variable {α : Type} [Scalar α]

structure Chart (α : Type) where
  geometry : Geometry α
  palette : Palette
  colors : ColorTable

structure Frame (α : Type) where
  rows : List Row
  scale : Scale α
  selected : Option String
  hovered : Option Nat
  viewport : Viewport α
  scrollTop : α

namespace Chart

def emptyMessage : String := "No spans in trace"

abbrev Mark (α : Type) := α × α

def tickCount (g : Geometry α) (viewport : Viewport α) : Nat :=
  Nat.max 2 <| Scalar.toWord <|
    Scalar.floor ((viewport.width - g.labelGutter - g.marginRight) / g.tickSpacing)

-- The ticks that lie on the time line, half a unit beyond its ends included.
def marks (g : Geometry α) (viewport : Viewport α) (scale : Scale α) (ticks : Ticks α) :
    List (Mark α) :=
  let (left, right) := g.timelineRange viewport.width
  (ticks.values.map fun v => (v, scale.apply v)).filter fun (_, x) =>
    left - 0.5 ≤ x && x ≤ right + 0.5

def labelAnchor (left right x half : α) : Anchor :=
  if x - half < left then .start
  else if right < x + half then .finish
  else .middle

def tickShapes (c : Chart α) (viewport : Viewport α) (step : α) (mark : Mark α) : List (Shape α) :=
  let g := c.geometry
  let (value, x) := mark
  let (left, right) := g.timelineRange viewport.width
  let text := Label.tick value step
  let half := Scalar.ofNat text.length * g.charWidth / 2
  [.line x (g.headerHeight - g.tickLength) x g.headerHeight c.palette.border,
    .text x ((g.headerHeight - g.tickLength) / 2) text c.palette.muted
      (labelAnchor left right x half) false]

def header (c : Chart α) (viewport : Viewport α) (marks : List (Mark α)) (step : α) :
    List (Shape α) :=
  let g := c.geometry
  [.rect 0 0 viewport.width g.headerHeight c.palette.background,
    .text g.labelPadding ((g.headerHeight - g.tickLength) / 2) "Span" c.palette.muted .start true]
    ++ marks.flatMap (tickShapes c viewport step)
    ++ [.line 0 g.headerHeight viewport.width g.headerHeight c.palette.border]

def grid (c : Chart α) (viewport : Viewport α) (marks : List (Mark α)) : List (Shape α) :=
  let g := c.geometry
  marks.map (fun (_, x) => .line x g.headerHeight x viewport.height c.palette.border)
    ++ [.line g.labelGutter 0 g.labelGutter viewport.height c.palette.border]

def highlight? (c : Chart α) (f : Frame α) (row : Row) : Option Color :=
  if f.selected = some row.span.id then some c.palette.selection
  else if f.hovered = some row.index then some c.palette.hover
  else none

def dotX (g : Geometry α) (row : Row) : α :=
  g.labelPadding + Scalar.ofNat row.depth * g.indent + g.dotRadius

def labelX (g : Geometry α) (row : Row) : α :=
  dotX g row + g.dotRadius + g.labelPadding

def durationX (g : Geometry α) : α :=
  g.labelGutter - g.labelPadding

def labelRoom (g : Geometry α) (row : Row) : Nat :=
  let duration := Label.duration row.span.duration
  let room := durationX g - Scalar.ofNat duration.length * g.charWidth - g.labelPadding
  Scalar.toWord (Scalar.floor ((room - labelX g row) / g.charWidth))

def nameShapes (c : Chart α) (row : Row) (middle : α) : List (Shape α) :=
  let room := labelRoom c.geometry row
  if 0 < room then
    [.text (labelX c.geometry row) middle (truncate row.span.name room) c.palette.foreground .start
      row.span.isRoot]
  else []

def barShapes (c : Chart α) (f : Frame α) (row : Row) (top : α) : List (Shape α) :=
  let g := c.geometry
  let x := Scalar.max (f.scale.apply (Scalar.ofNat row.span.start.toNat)) g.labelGutter
  let finish := Scalar.max (f.scale.apply (Scalar.ofNat row.span.finish.toNat)) x
  if x < f.viewport.width then
    [.rect x (top + g.barInset) (Scalar.max (finish - x) g.minBarWidth)
      (g.rowHeight - 2 * g.barInset) (c.colors.colorOf row.span.service row.span.status)]
  else []

def rowShapes (c : Chart α) (f : Frame α) (row : Row) : List (Shape α) :=
  let g := c.geometry
  let top := g.rowTop row.index
  let middle := top + g.rowHeight / 2
  let width := f.viewport.width
  let color := c.colors.colorOf row.span.service row.span.status
  (match highlight? c f row with
    | some fill => [.rect 0 top width g.rowHeight fill]
    | none => [])
    ++ (if g.rowDividers then
      [.line 0 (top + g.rowHeight) width (top + g.rowHeight) c.palette.border]
    else [])
    ++ [.dot (dotX g row) middle g.dotRadius color]
    ++ nameShapes c row middle
    ++ [.text (durationX g) middle (Label.duration row.span.duration) c.palette.muted .finish false]
    ++ barShapes c f row top

def slice (rows : List Row) (range : Nat × Nat) : List Row :=
  (rows.take range.2).drop range.1

def scene (c : Chart α) (f : Frame α) : Scene α :=
  if f.rows.isEmpty then .message f.viewport c.palette emptyMessage
  else
    let g := c.geometry
    let contentHeight := g.contentHeight f.rows.length f.viewport.height
    let maxScroll := Scalar.positive (contentHeight - f.viewport.height)
    let scrollTop := Scalar.clamp f.scrollTop 0 maxScroll
    let visible := g.visibleRows f.rows.length f.viewport scrollTop
    let ticks := f.scale.ticks (tickCount g f.viewport)
    let marks := marks g f.viewport f.scale ticks
    { viewport := f.viewport
      background := c.palette.background
      foreground := c.palette.foreground
      header := header c f.viewport marks ticks.step
      grid := grid c f.viewport marks
      rows := (slice f.rows visible).flatMap (rowShapes c f)
      bodyTop := g.headerHeight
      contentHeight := contentHeight
      scrollTop := scrollTop
      visibleRows := visible }

-- Nothing is drawn at all where a row that would show has no label for its duration.
def scene? (c : Chart α) (f : Frame α) : Option (Scene α) :=
  let scene := c.scene f
  if (slice f.rows scene.visibleRows).all fun row => (Label.duration? row.span.duration).isSome then
    some scene
  else none

end Chart

end Waterfall
