import Waterfall.Color

set_option autoImplicit false

namespace Waterfall

namespace Terminal

inductive Ink where
  | plain
  | black
  | red
  | green
  | yellow
  | magenta
  | cyan
  | gray
  | darkGray
  | white
  | exact (color : Color)
  deriving DecidableEq, Inhabited

/-- What changes about a cell; colours that are left out stay. -/
structure Style where
  foreground : Option Ink := none
  background : Option Ink := none
  bold : Bool := false
  deriving DecidableEq

def Style.ink (ink : Ink) : Style := { foreground := some ink }

def Style.strong (ink : Ink) : Style := { foreground := some ink, bold := true }

structure Cell where
  symbol : String := " "
  foreground : Ink := .plain
  background : Ink := .plain
  bold : Bool := false
  deriving DecidableEq, Inhabited

namespace Cell

def styled (c : Cell) (s : Style) : Cell where
  symbol := c.symbol
  foreground := s.foreground.getD c.foreground
  background := s.background.getD c.background
  bold := c.bold || s.bold

def showing (c : Cell) (symbol : String) (s : Style) : Cell :=
  ({ c with symbol := symbol }).styled s

end Cell

end Terminal

end Waterfall
