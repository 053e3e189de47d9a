import Waterfall.Terminal.Panel

set_option autoImplicit false

namespace Waterfall

namespace Terminal

abbrev Entry := List String

def Entry.ofText (text : String) : Entry :=
  if text = "" then [""] else linesOf text

namespace Menu

def fitting (room : Nat) : List Nat → Nat
  | [] => 0
  | height :: rest => if height ≤ room then fitting (room - height) rest + 1 else 0

def window (heights : List Nat) (room top : Nat) (marked : Option Nat) : Nat × Nat :=
  let first := min top (heights.length - 1)
  let last := first + fitting room (heights.drop first)
  match marked with
  | none => (first, last)
  | some i =>
    if last ≤ i then
      let above := fitting room ((heights.take (i + 1)).drop first).reverse
      if above = 0 then (i, i) else (i + 1 - above, i + 1)
    else if i < first then (i, i + fitting room ((heights.take last).drop i))
    else (first, last)

end Menu

namespace Screen

def mark : String := "▶ "

def marking : Style :=
  { foreground := some .black, background := some .cyan, bold := true }

def putText [Graphemes] (s : Screen) (x y right : Nat) (text : String) : Screen :=
  s.putTitle x y right (Fragment.glyphs { text := text })

def putEntry [Graphemes] (s : Screen) (area : Rect) (y : Nat) (indented isMarked : Bool)
    (entry : Entry) : Screen :=
  let indent := if indented then 2 else 0
  let s := entry.zipIdx.foldl
    (fun s (line, j) => s.putText (area.x + indent) (y + j) area.right line) s
  let s := if indented then
      (List.range entry.length).foldl
        (fun s j => s.putText area.x (y + j) area.right (if isMarked ∧ j = 0 then mark else "  ")) s
    else s
  if isMarked then s.restyle ⟨area.x, y, area.width, entry.length⟩ marking else s

def putEntries [Graphemes] (s : Screen) (area : Rect) (y i : Nat) (marked : Option Nat) :
    List Entry → Screen
  | [] => s
  | entry :: rest =>
    (s.putEntry area y marked.isSome (marked = some i) entry).putEntries area (y + entry.length)
      (i + 1) marked rest

def putMenu [Graphemes] (s : Screen) (area : Rect) (entries : List Entry) (window : Nat × Nat)
    (marked : Option Nat) : Screen :=
  if area.isEmpty then s
  else
    s.putEntries area area.y window.1 marked ((entries.drop window.1).take (window.2 - window.1))

end Screen

end Terminal

end Waterfall
