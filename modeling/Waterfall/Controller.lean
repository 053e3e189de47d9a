import Waterfall.Chart
import Waterfall.Redraw
import Waterfall.Zoom

set_option autoImplicit false

namespace Waterfall

variable {α : Type} [Scalar α]

structure Controller (α : Type) where
  chart : Chart α
  limits : ZoomLimits α
  viewport : Viewport α
  extent : UInt64
  rowCount : Nat
  base : Scale α
  zoom : Zoom α
  scrollTop : α
  hovered : Option Nat
  dragOrigin : Option α
  redraw : Redraw

structure Modifiers where
  ctrl : Bool := false
  command : Bool := false
  shift : Bool := false

/-- Turns of the wheel in notches; down is positive. -/
structure Wheel (α : Type) where
  x : α
  y : α
  deltaX : α
  deltaY : α
  modifiers : Modifiers

inductive WheelEffect where
  | zoomed
  | panned
  | scrolled
  | ignored
  deriving DecidableEq

namespace Controller

def geometry (c : Controller α) : Geometry α := c.chart.geometry

def baseScale (g : Geometry α) (extent : UInt64) (width : α) : Scale α :=
  let (left, right) := g.timelineRange width
  .base extent left right

def new (chart : Chart α) (limits : ZoomLimits α) (interval : Nat) : Controller α where
  chart := chart
  limits := limits
  viewport := ⟨0, 0⟩
  extent := 0
  rowCount := 0
  base := baseScale chart.geometry 0 0
  zoom := .identity
  scrollTop := 0
  hovered := none
  dragOrigin := none
  redraw := { interval := interval }

def range (c : Controller α) : α × α := c.base.range

def requestRedraw (c : Controller α) : Controller α :=
  { c with redraw := c.redraw.request }

def rebuildBase (c : Controller α) : Controller α :=
  let base := baseScale c.geometry c.extent c.viewport.width
  { c with base := base, zoom := c.zoom.constrain base.range }

def load (c : Controller α) (rowCount : Nat) (extent : UInt64) : Controller α :=
  let c := { c with
    rowCount := rowCount
    extent := extent
    zoom := .identity
    scrollTop := 0
    hovered := none
    dragOrigin := none }
  c.rebuildBase.requestRedraw

def maxScroll (c : Controller α) : α :=
  Scalar.positive (c.geometry.contentHeight c.rowCount c.viewport.height - c.viewport.height)

def resize (c : Controller α) (viewport : Viewport α) : Controller α :=
  if viewport.width == c.viewport.width && viewport.height == c.viewport.height then c
  else
    let c := { c with viewport := viewport }.rebuildBase
    { c with scrollTop := Scalar.clamp c.scrollTop 0 c.maxScroll }.requestRedraw

def isZoomed (c : Controller α) : Bool :=
  !c.zoom.isIdentity

def scale (c : Controller α) : Scale α :=
  c.zoom.rescale c.base

def setZoom (c : Controller α) (zoom : Zoom α) : Controller α × Bool :=
  if zoom.k == c.zoom.k && zoom.x == c.zoom.x then (c, false)
  else ({ c with zoom := zoom }.requestRedraw, true)

def zoomAt (c : Controller α) (x factor : α) : Controller α × Bool :=
  if Scalar.finite factor = false ∨ factor ≤ 0 then (c, false)
  else c.setZoom (c.zoom.zoomAt x factor c.limits c.range)

def center (c : Controller α) : α :=
  (c.range.1 + c.range.2) / 2

def zoomIn (c : Controller α) : Controller α × Bool :=
  c.zoomAt c.center c.limits.step

def zoomOut (c : Controller α) : Controller α × Bool :=
  c.zoomAt c.center (1 / c.limits.step)

def panBy (c : Controller α) (dx : α) : Controller α × Bool :=
  c.setZoom (c.zoom.pan dx c.range)

def panLeft (c : Controller α) : Controller α × Bool :=
  c.panBy c.geometry.panStep

def panRight (c : Controller α) : Controller α × Bool :=
  c.panBy (-c.geometry.panStep)

def resetZoom (c : Controller α) : Controller α × Bool :=
  c.setZoom .identity

def dragStart (c : Controller α) (x : α) : Controller α :=
  { c with dragOrigin := some x }

def dragTo (c : Controller α) (x : α) : Controller α × Bool :=
  match c.dragOrigin with
  | none => (c.dragStart x, false)
  | some origin => (c.dragStart x).panBy (x - origin)

def dragEnd (c : Controller α) : Controller α :=
  { c with dragOrigin := none }

def scrollTo (c : Controller α) (top : α) : Controller α × Bool :=
  let top := Scalar.clamp top 0 c.maxScroll
  if Scalar.abs (top - c.scrollTop) < Scalar.epsilon then (c, false)
  else ({ c with scrollTop := top }.requestRedraw, true)

def scrollBy (c : Controller α) (dy : α) : Controller α × Bool :=
  c.scrollTo (c.scrollTop + dy)

def body (c : Controller α) : α :=
  Scalar.max (c.viewport.height - c.geometry.headerHeight) c.geometry.rowHeight

def page (c : Controller α) (pages : α) : Controller α × Bool :=
  c.scrollBy (pages * c.body)

def scrollIntoView (c : Controller α) (row : Nat) : Controller α × Bool :=
  let height := c.geometry.rowHeight
  let top := Scalar.ofNat row * height
  if top < c.scrollTop then c.scrollTo top
  else if c.scrollTop + c.body < top + height then c.scrollTo (top + height - c.body)
  else (c, false)

def wheel (c : Controller α) (w : Wheel α) : Controller α × WheelEffect :=
  let (next, changed, effect) :=
    if w.modifiers.ctrl || w.modifiers.command then
      let (next, changed) := c.zoomAt w.x (Scalar.pow c.limits.step (-w.deltaY))
      (next, changed, WheelEffect.zoomed)
    else if w.modifiers.shift || !(w.deltaX == 0) then
      let notches := if !(w.deltaX == 0) then w.deltaX else w.deltaY
      let (next, changed) := c.panBy (-notches * c.geometry.panStep)
      (next, changed, WheelEffect.panned)
    else
      let (next, changed) := c.scrollBy (w.deltaY * 3 * c.geometry.rowHeight)
      (next, changed, WheelEffect.scrolled)
  (next, if changed then effect else .ignored)

def hit? (c : Controller α) (x y : α) : Option Nat :=
  if x < 0 ∨ c.viewport.width < x ∨ c.viewport.height < y then none
  else (c.geometry.rowAt? y c.scrollTop).filter (· < c.rowCount)

def click (c : Controller α) (x y : α) (rows : List Row) : Controller α × Option Row :=
  match (c.hit? x y).bind fun row => rows[row]? with
  | some row => (c.requestRedraw, some row)
  | none => (c, none)

-- A double click does no more than its two clicks.
def doubleClick (c : Controller α) (_x _y : α) : Controller α × Bool :=
  (c, false)

def hover (c : Controller α) (x y : α) : Controller α × Bool :=
  let row := c.hit? x y
  if row = c.hovered then (c, false)
  else ({ c with hovered := row }.requestRedraw, true)

def leave (c : Controller α) : Controller α × Bool :=
  if c.hovered.isSome then ({ c with hovered := none }.requestRedraw, true) else (c, false)

def beginFrame (c : Controller α) (now : Nat) : Controller α × Bool :=
  let (redraw, drawn) := c.redraw.beginFrame now
  ({ c with redraw := redraw }, drawn)

def frame (c : Controller α) (rows : List Row) (selected : Option String) : Frame α where
  rows := rows
  scale := c.scale
  selected := selected
  hovered := c.hovered
  viewport := c.viewport
  scrollTop := c.scrollTop

def scene (c : Controller α) (rows : List Row) (selected : Option String) : Scene α :=
  c.chart.scene (c.frame rows selected)

def scene? (c : Controller α) (rows : List Row) (selected : Option String) : Option (Scene α) :=
  c.chart.scene? (c.frame rows selected)

def message (c : Controller α) (text : String) : Scene α :=
  .message c.viewport c.chart.palette text

end Controller

end Waterfall
