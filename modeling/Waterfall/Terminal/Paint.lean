import Waterfall.Scene
import Waterfall.Terminal.Screen

set_option autoImplicit false

namespace Waterfall

namespace Terminal

variable {α : Type} [Scalar α]

/-- A band of lines of an area that may be painted, and how far what is painted is moved up. -/
structure Layer (α : Type) where
  area : Rect
  top : Int
  bottom : Int
  shift : α

namespace Layer

def line (l : Layer α) (y : α) : Int :=
  Scalar.toInt (Scalar.floor (y - l.shift))

def cell? (l : Layer α) (x y : α) : Option (Nat × Nat) :=
  let column := Scalar.toInt (Scalar.floor x)
  let row := l.line y
  if column < 0 ∨ l.area.width ≤ column ∨ row < l.top ∨ l.bottom ≤ row then none
  else some (l.area.x + column.toNat, l.area.y + row.toNat)

def dab (l : Layer α) (s : Screen) (x y : α) (f : Cell → Cell) : Screen :=
  match l.cell? x y with
  | some (column, row) => s.modify column row f
  | none => s

def columns (width : Nat) (x extent : α) : List Nat :=
  let first := Scalar.toInt (Scalar.floor x)
  let last := Scalar.toInt (Scalar.max (Scalar.ceil (x + extent)) (Scalar.floor x + 1))
  (List.range width).filter fun i => first ≤ i ∧ i < last

-- The line after the last of a stretch; it has at least one line, but none behind the last number
-- of 64 bits.
def stretchEnd (l : Layer α) (y height : α) : Int :=
  let after := min (l.line y + 1) (Nat.pow 2 63 - 1 : Nat)
  max (Scalar.toInt (Scalar.ceil (y + height - l.shift))) after

def fillLines (l : Layer α) (s : Screen) (columns : List Nat) (f : Cell → Cell) (row : Int) :
    Nat → Screen
  | 0 => s
  | n + 1 =>
    let s := columns.foldl
      (fun s i => l.dab s (Scalar.ofNat i) (Scalar.ofInt row + l.shift) f) s
    fillLines l s columns f (row + 1) n

def fill (l : Layer α) (s : Screen) (x y width height : α) (f : Cell → Cell) : Screen :=
  l.fillLines s (columns l.area.width x width) f (l.line y) (l.stretchEnd y height - l.line y).toNat

def writeChars (l : Layer α) (s : Screen) (start y : α) (style : Style) (i : Nat) :
    List Char → Screen
  | [] => s
  | c :: rest =>
    let s := l.dab s (start + Scalar.ofNat i) y (·.showing (String.singleton c) style)
    writeChars l s start y style (i + 1) rest

def textStart (x : α) (length : Nat) : Anchor → α
  | .start => x
  | .middle => x - Scalar.ofNat length / 2
  | .finish => x - Scalar.ofNat length

def shape (l : Layer α) (s : Screen) : Shape α → Screen
  | .rect x y width height color =>
    l.fill s x y width height (·.showing " " { background := some (.exact color) })
  | .line x1 y1 x2 y2 color =>
    let style := Style.ink (.exact color)
    if Scalar.abs (x1 - x2) < Scalar.epsilon then
      l.fill s x1 y1 0 (y2 - y1) (·.showing "│" style)
    else l.fill s (Scalar.min x1 x2) y1 (Scalar.abs (x2 - x1)) 0 (·.showing "─" style)
  | .text x y text color anchor bold =>
    let style : Style := { foreground := some (.exact color), bold := bold }
    l.writeChars s (textStart x text.length anchor) y style 0 text.toList
  | .dot cx cy _ color => l.dab s cx cy (·.showing "●" (.ink (.exact color)))

def shapes (l : Layer α) (s : Screen) (shapes : List (Shape α)) : Screen :=
  shapes.foldl l.shape s

end Layer

end Terminal

namespace Scene

open Terminal

variable {α : Type} [Scalar α]

def style (scene : Scene α) : Style :=
  { foreground := some (.exact scene.foreground), background := some (.exact scene.background) }

def bodyLine (scene : Scene α) : Int :=
  Scalar.toInt (Scalar.ceil scene.bodyTop)

def gridLayer (_ : Scene α) (area : Rect) : Layer α :=
  ⟨area, 0, area.height, 0⟩

def rowLayer (scene : Scene α) (area : Rect) : Layer α :=
  ⟨area, scene.bodyLine, area.height, scene.scrollTop⟩

def headerLayer (scene : Scene α) (area : Rect) : Layer α :=
  ⟨area, 0, min scene.bodyLine area.height, 0⟩

def paintMessage? [Graphemes] (scene : Scene α) (message : String) (area : Rect) (s : Screen) :
    Option Screen :=
  let width := min message.length area.width
  s.write? (area.x + (area.width - width) / 2) (area.y + area.height / 2) message area.width
    scene.style

-- Paints a scene on an area of a screen; `none` if the screen lacks a cell that a message needs.
def paint? [Graphemes] (scene : Scene α) (area : Rect) (s : Screen) : Option Screen :=
  let s := s.restyle area scene.style
  match scene.placeholder with
  | some message => scene.paintMessage? message area s
  | none =>
    let s := (scene.gridLayer area).shapes s scene.grid
    let s := (scene.rowLayer area).shapes s scene.rows
    some ((scene.headerLayer area).shapes s scene.header)

end Scene

end Waterfall
