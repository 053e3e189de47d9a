import Waterfall.Preferences
import Waterfall.Terminal.Rect

set_option autoImplicit false

namespace Waterfall

namespace Terminal

structure Areas where
  sidebar : Rect := {}
  frame : Rect := {}
  timeline : Rect := {}
  details : Rect := {}
  footer : Rect := {}
  deriving DecidableEq, Inhabited

namespace Areas

def percent (ratio : Float32) : Nat :=
  let x := ratio * 100.0
  let whole := if x < 100.0 then x.toUInt8 else if 100.0 ≤ x then 100 else 0
  if 0.5 ≤ x - whole.toFloat32 ∧ whole < 100 then whole.toNat + 1 else whole.toNat

def share (size percent : Nat) : Nat :=
  min ((2 * size * percent + 100) / 200) (size - 3)

def ofArea (area : Rect) (sidebarWidth : Nat) (split : Split) (detailsBelow : Bool) : Areas :=
  let footerHeight := min 3 (area.height - 3)
  let top := { area with height := area.height - footerHeight }
  let sidebar := { top with width := min sidebarWidth (top.width - 10) }
  let main := { top with x := top.x + sidebar.width, width := top.width - sidebar.width }
  let (frame, details) :=
    if detailsBelow then
      let height := share main.height (percent split.vertical)
      ({ main with height := height },
        { main with y := main.y + height, height := main.height - height })
    else
      let width := share main.width (percent split.horizontal)
      ({ main with width := width },
        { main with x := main.x + width, width := main.width - width })
  { sidebar := sidebar
    frame := frame
    timeline := frame.inner
    details := details
    footer := { area with y := area.y + top.height, height := footerHeight } }

end Areas

end Terminal

end Waterfall
