import Waterfall.Scalar

set_option autoImplicit false

namespace Waterfall

variable {α : Type} [Scalar α]

structure Viewport (α : Type) where
  width : α
  height : α

-- Sizes that are negative or no numbers count as zero.
def Viewport.ofSize (width height : α) : Viewport α :=
  ⟨Scalar.positive width, Scalar.positive height⟩

structure Geometry (α : Type) where
  rowHeight : α
  headerHeight : α
  labelGutter : α
  marginRight : α
  minBarWidth : α
  indent : α
  dotRadius : α
  barInset : α
  labelPadding : α
  tickLength : α
  charWidth : α
  tickSpacing : α
  panStep : α
  rowDividers : Bool

inductive Geometry.Fault (α : Type) where
  | rowHeight
  | negativeSize
  | labelGutter (width : α)
  | barInset
  | barOrCharWidth
  | tickOrPan

def Geometry.Fault.message (write : α → String) : Geometry.Fault α → String
  | .rowHeight => "geometry.row_height must be greater than 0"
  | .negativeSize => "geometry sizes must not be negative"
  | .labelGutter width =>
    "geometry.label_gutter must be between 0 and 10000, got " ++ write width
  | .barInset => "geometry.bar_inset leaves no room for bars"
  | .barOrCharWidth => "geometry.min_bar_width and geometry.char_width must be greater than 0"
  | .tickOrPan => "geometry.tick_spacing and geometry.pan_step must be greater than 0"

namespace Geometry

-- Sizes in pixels.
def standard : Geometry α where
  rowHeight := 24
  headerHeight := 30
  labelGutter := 200
  marginRight := 16
  minBarWidth := 3
  indent := 12
  dotRadius := 4
  barInset := 5
  labelPadding := 8
  tickLength := 6
  charWidth := 7
  tickSpacing := 100
  panStep := 40
  rowDividers := true

-- Sizes in cells of a terminal.
def terminal (labelWidth : Nat) : Geometry α where
  rowHeight := 1
  headerHeight := 2
  labelGutter := Scalar.ofNat labelWidth
  marginRight := 1
  minBarWidth := 1
  indent := 2
  dotRadius := 0.5
  barInset := 0
  labelPadding := 1
  tickLength := 1
  charWidth := 1
  tickSpacing := 12
  panStep := 4
  rowDividers := false

def sizes (g : Geometry α) : List (String × α) :=
  [("row_height", g.rowHeight), ("header_height", g.headerHeight), ("label_gutter", g.labelGutter),
    ("margin_right", g.marginRight), ("min_bar_width", g.minBarWidth), ("indent", g.indent),
    ("dot_radius", g.dotRadius), ("bar_inset", g.barInset), ("label_padding", g.labelPadding),
    ("tick_length", g.tickLength), ("char_width", g.charWidth), ("tick_spacing", g.tickSpacing),
    ("pan_step", g.panStep)]

def mapSizesM {m : Type → Type} [Monad m] (f : String → α → m α) (g : Geometry α) :
    m (Geometry α) := do
  return { g with
    rowHeight := ← f "row_height" g.rowHeight
    headerHeight := ← f "header_height" g.headerHeight
    labelGutter := ← f "label_gutter" g.labelGutter
    marginRight := ← f "margin_right" g.marginRight
    minBarWidth := ← f "min_bar_width" g.minBarWidth
    indent := ← f "indent" g.indent
    dotRadius := ← f "dot_radius" g.dotRadius
    barInset := ← f "bar_inset" g.barInset
    labelPadding := ← f "label_padding" g.labelPadding
    tickLength := ← f "tick_length" g.tickLength
    charWidth := ← f "char_width" g.charWidth
    tickSpacing := ← f "tick_spacing" g.tickSpacing
    panStep := ← f "pan_step" g.panStep }

def fault? (g : Geometry α) : Option (Fault α) :=
  if g.rowHeight ≤ 0 then some .rowHeight
  else if g.headerHeight < 0 ∨ g.marginRight < 0 ∨ g.barInset < 0 then some .negativeSize
  else if ¬ (0 ≤ g.labelGutter ∧ g.labelGutter < 10000) then some (.labelGutter g.labelGutter)
  else if g.rowHeight ≤ g.barInset * 2 then some .barInset
  else if g.minBarWidth ≤ 0 ∨ g.charWidth ≤ 0 then some .barOrCharWidth
  else if g.tickSpacing ≤ 0 ∨ g.panStep ≤ 0 then some .tickOrPan
  else none

def rowTop (g : Geometry α) (row : Nat) : α :=
  g.headerHeight + Scalar.ofNat row * g.rowHeight

-- The row at a height of the viewport, which may lie behind the last.
def rowAt? (g : Geometry α) (y scrollTop : α) : Option Nat :=
  if y < g.headerHeight then none
  else
    let offset := y - g.headerHeight + scrollTop
    if 0 ≤ offset then some (Scalar.toWord (Scalar.floor (offset / g.rowHeight))) else none

def contentHeight (g : Geometry α) (rows : Nat) (viewportHeight : α) : α :=
  Scalar.max (g.rowTop rows) viewportHeight

def timelineRange (g : Geometry α) (width : α) : α × α :=
  (g.labelGutter, Scalar.max (width - g.marginRight) (g.labelGutter + 1))

def visibleRows (g : Geometry α) (rows : Nat) (viewport : Viewport α) (scrollTop : α) : Nat × Nat :=
  let body := Scalar.positive (viewport.height - g.headerHeight)
  let first := Scalar.toWord (Scalar.floor (scrollTop / g.rowHeight))
  let last := Scalar.toWord (Scalar.ceil ((scrollTop + body) / g.rowHeight))
  (Nat.min first rows, Nat.min last rows)

end Geometry

end Waterfall
