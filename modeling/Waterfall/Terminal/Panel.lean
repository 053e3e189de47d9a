import Waterfall.Terminal.Paragraph

set_option autoImplicit false

namespace Waterfall

namespace Terminal

namespace Screen

-- A cluster shows up in its first cell. One that takes no column is added to the cell in front of
-- it.
def putTitleGlyph (s : Screen) (start x y : Nat) (g : Glyph) : Screen :=
  if g.width = 0 ∧ start < x then
    s.modify (x - 1) y fun c => c.showing (c.symbol ++ g.cluster.text) g.style
  else s.putCluster x y g.cluster g.style

def putTitleFrom (s : Screen) (start x y right : Nat) : List Glyph → Screen
  | [] => s
  | g :: rest =>
    if right < x + g.width then s
    else (s.putTitleGlyph start x y g).putTitleFrom start (x + g.width) y right rest

def putTitle (s : Screen) (x y right : Nat) (glyphs : List Glyph) : Screen :=
  s.putTitleFrom x x y right glyphs

def putRow (s : Screen) (area : Rect) (y : Nat) (symbol : String) (style : Style) : Screen :=
  (List.range area.width).foldl (fun s i => s.put (area.x + i) y symbol style) s

def putColumn (s : Screen) (area : Rect) (x : Nat) (symbol : String) (style : Style) : Screen :=
  (List.range area.height).foldl (fun s i => s.put x (area.y + i) symbol style) s

-- A line around an area. Where the area is too small for all corners, the first ones win.
def putBorder (s : Screen) (area : Rect) (style : Style) : Screen :=
  let last := area.right - 1
  let low := area.bottom - 1
  let s := s.putColumn area area.x "│" style
  let s := s.putRow area area.y "─" style
  let s := s.putColumn area last "│" style
  let s := s.putRow area low "─" style
  let s := s.put last low "┘" style
  let s := s.put last area.y "┐" style
  let s := s.put area.x low "└" style
  s.put area.x area.y "┌" style

def putPanel [Graphemes] (s : Screen) (area : Rect) (title : String) (centered : Bool)
    (style : Style) : Screen :=
  let area := area.intersect s.area
  if area.isEmpty then s
  else
    let s := s.putBorder area style
    let glyphs := Fragment.glyphs { text := title }
    let offset := if centered then (area.width - 2 - widthOf glyphs) / 2 else 0
    s.putTitle (area.x + 1 + offset) area.y (area.right - 1) glyphs

end Screen

end Terminal

end Waterfall
