import Waterfall.Geometry
import Waterfall.Palette

set_option autoImplicit false

namespace Waterfall

variable {α : Type} [Scalar α]

inductive Anchor where
  | start
  | middle
  | finish
  deriving DecidableEq

/-- A shape. The `y` of a text is its middle. -/
inductive Shape (α : Type) where
  | rect (x y width height : α) (fill : Color)
  | line (x1 y1 x2 y2 : α) (color : Color)
  | text (x y : α) (text : String) (color : Color) (anchor : Anchor) (bold : Bool)
  | dot (cx cy r : α) (color : Color)

/-- One frame. Header and grid stay in place; the rows are moved up by `scrollTop`. -/
structure Scene (α : Type) where
  viewport : Viewport α
  background : Color
  foreground : Color
  header : List (Shape α) := []
  grid : List (Shape α) := []
  rows : List (Shape α) := []
  placeholder : Option String := none
  bodyTop : α
  contentHeight : α
  scrollTop : α
  visibleRows : Nat × Nat := (0, 0)

namespace Scene

def message (viewport : Viewport α) (palette : Palette) (text : String) : Scene α where
  viewport := viewport
  background := palette.background
  foreground := palette.muted
  placeholder := some text
  bodyTop := 0
  contentHeight := viewport.height
  scrollTop := 0

def maxScroll (s : Scene α) : α :=
  Scalar.positive (s.contentHeight - s.viewport.height)

end Scene

end Waterfall
