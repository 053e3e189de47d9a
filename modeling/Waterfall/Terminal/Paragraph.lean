import Waterfall.Terminal.Screen

set_option autoImplicit false

namespace Waterfall

namespace Terminal

structure Fragment where
  text : String
  style : Style := {}

abbrev Line := List Fragment

-- A carriage return at the end of a line belongs to the line break.
def withoutReturn (line : String) : String :=
  if line.endsWith "\r" then (line.dropEnd 1).toString else line

def linesOf (text : String) : List String :=
  let parts := text.splitOn "\n"
  match parts.reverse with
  | "" :: rest => rest.reverse.map withoutReturn
  | last :: rest => rest.reverse.map withoutReturn ++ [last]
  | [] => []

structure Glyph where
  cluster : Cluster
  style : Style

namespace Glyph

def width (g : Glyph) : Nat := g.cluster.width

def isBlank (g : Glyph) : Bool := g.cluster.isBlank

end Glyph

def widthOf : List Glyph → Nat
  | [] => 0
  | g :: rest => g.width + widthOf rest

def Fragment.glyphs [Graphemes] (f : Fragment) : List Glyph :=
  ((Cluster.ofText f.text).filter (·.text ≠ "\n")).map fun c => ⟨c, f.style⟩

def Line.glyphs [Graphemes] (line : Line) : List Glyph :=
  line.flatMap Fragment.glyphs

def cutTo (width : Nat) (used : Nat) : List Glyph → List Glyph
  | [] => []
  | g :: rest =>
    if width < g.width then cutTo width used rest
    else if width < used + g.width then []
    else g :: cutTo width (used + g.width) rest

/-- A line that is being wrapped: the finished lines, last first; the line so far; and the word at
its end with the blanks in front of it. -/
structure Wrapping where
  done : List (List Glyph) := []
  line : List Glyph := []
  gap : List Glyph := []
  word : List Glyph := []
  solid : Bool := false

namespace Wrapping

def dropFitting (room : Nat) : List Glyph → List Glyph
  | [] => []
  | g :: rest => if g.width ≤ room then dropFitting (room - g.width) rest else g :: rest

def join (w : Wrapping) : Wrapping :=
  { w with line := w.line ++ w.gap ++ w.word, gap := [], word := [] }

-- The line is finished; blanks that would have fitted at its end are dropped.
def breakLine (w : Wrapping) (width : Nat) : Wrapping :=
  { w with done := w.line :: w.done, line := [], gap := dropFitting (width - widthOf w.line) w.gap }

def append (w : Wrapping) (g : Glyph) : Wrapping :=
  if g.isBlank then { w with gap := w.gap ++ [g], solid := false }
  else { w with word := w.word ++ [g], solid := true }

def isFull (w : Wrapping) (width : Nat) (g : Glyph) : Bool :=
  width ≤ widthOf w.line
    || (0 < g.width && width ≤ widthOf w.line + widthOf w.gap + widthOf w.word)

def step (width : Nat) (w : Wrapping) (g : Glyph) : Wrapping :=
  if width < g.width then w
  else
    let overflows := w.line.isEmpty && width < widthOf w.word + widthOf w.gap + g.width
    let w := if (w.solid && g.isBlank) || overflows then w.join else w
    if w.isFull width g then
      let w := w.breakLine width
      if g.isBlank && w.gap.isEmpty then w else w.append g
    else w.append g

def finish (w : Wrapping) : List (List Glyph) :=
  let done := if w.line.isEmpty && w.word.isEmpty && !w.gap.isEmpty then [] :: w.done else w.done
  let done := if w.join.line.isEmpty then done else w.join.line :: done
  if done.isEmpty then [[]] else done.reverse

end Wrapping

def wrap (width : Nat) (glyphs : List Glyph) : List (List Glyph) :=
  (glyphs.foldl (Wrapping.step width) {}).finish

namespace Screen

def putGlyphs (s : Screen) (x y : Nat) : List Glyph → Screen
  | [] => s
  | g :: rest =>
    let s := if g.width = 0 then s else s.put x y g.cluster.text g.style
    putGlyphs s (x + g.width) y rest

def putLines (s : Screen) (area : Rect) (offset : Nat → Nat) (lines : List (List Glyph)) : Screen :=
  ((lines.take area.height).zipIdx).foldl
    (fun s (line, i) => s.putGlyphs (area.x + offset (widthOf line)) (area.y + i) line) s

def putWrapped [Graphemes] (s : Screen) (area : Rect) (scroll : Nat) (text : List Line) : Screen :=
  if area.isEmpty then s
  else s.putLines area (fun _ => 0) ((text.flatMap fun l => wrap area.width l.glyphs).drop scroll)

def putCut [Graphemes] (s : Screen) (area : Rect) (centered : Bool) (text : List Line) : Screen :=
  if area.isEmpty then s
  else
    let offset (width : Nat) : Nat := if centered then area.width / 2 - width / 2 else 0
    s.putLines area offset (text.map fun l => cutTo area.width 0 l.glyphs)

end Screen

end Terminal

end Waterfall
