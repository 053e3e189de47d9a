import Waterfall.App.Basic
import Waterfall.Calendar
import Waterfall.Terminal.Details
import Waterfall.Terminal.Menu
import Waterfall.Terminal.Paint

set_option autoImplicit false

namespace Waterfall

open Terminal

namespace App

variable {α : Type} [Scalar α]

def entries (a : App α) : List Entry :=
  a.evaluations.map fun handle => Entry.ofText (handleLabel handle)

def listWindow (a : App α) (room : Nat) : Nat × Nat :=
  Menu.window (a.entries.map List.length) room a.listTop a.marked

def keepMark (a : App α) : App α :=
  if a.evaluations.isEmpty then { a with marked := none, listTop := 0 }
  else { a with marked := a.marked.map (min · (a.evaluations.length - 1)) }

def scrollList (a : App α) : App α :=
  let room := a.areas.sidebar.inner
  if room.isEmpty then a
  else
    let a := a.keepMark
    if a.evaluations.isEmpty then a else { a with listTop := (a.listWindow room.height).1 }

def putList [Graphemes] (a : App α) (s : Screen) : Screen :=
  let area := a.areas.sidebar
  let title := " EVALUATIONS (" ++ toString a.evaluations.length ++ ") "
  let s := s.putPanel area title false (.ink .darkGray)
  s.putMenu area.inner a.entries (a.listWindow area.inner.height) a.marked

def startedText (a : App α) : String :=
  match a.view.shown?.bind (·.trace.startedAt) with
  | some instant => " · " ++ instant.text ++ " UTC"
  | none => ""

def timelineTitle (a : App α) : String :=
  match a.view.handle? with
  | some handle => " TIMELINE · " ++ handleLabel handle ++ a.startedText ++ " "
  | none => " TIMELINE "

def putTimeline? [Graphemes] (a : App α) (s : Screen) : Option Screen := do
  let s := s.putPanel a.areas.frame a.timelineTitle false (.ink .darkGray)
  (← a.view.scene? a.controller).paint? a.areas.timeline s

def putDetails? [Graphemes] (a : App α) (s : Screen) : Option Screen :=
  s.putDetails? a.areas.details (a.view.shown?.bind (·.selectedRow?)) a.detailsScroll

def keysText : String :=
  "[q]uit [?]help [Tab]eval [j/k]span [+/-]zoom [h/l]pan [0]reset [v]split"

def footer (a : App α) : Line :=
  [⟨" " ++ (a.view.stage a.controller).name ++ " ",
      { foreground := some .black, background := some .cyan }⟩,
    ⟨" ", {}⟩]
    ++ (if a.view.canRetry then [⟨"[r]etry ", .ink .red⟩] else [])
    ++ (if a.controller.isZoomed then
        [⟨"×" ++ Label.decimals 1 a.controller.zoom.k ++ " ", .ink .yellow⟩]
      else [])
    ++ [⟨keysText, .ink .white⟩]

def putFooter [Graphemes] (a : App α) (s : Screen) : Screen :=
  let s := s.putPanel a.areas.footer "" false (.ink .darkGray)
  s.putCut a.areas.footer.inner true [a.footer]

def helpKeys : List String :=
  ["  q/Ctrl+C    Quit application",
    "  ↑/k ↓/j     Select previous/next span",
    "  PgUp/PgDn   Scroll rows by a page",
    "  K/J         Scroll span details",
    "  Tab/S-Tab   Next/previous evaluation",
    "  +/-         Zoom in/out",
    "  ←/h →/l     Pan the time window",
    "  0           Reset zoom",
    "  [ ]         Shrink/grow the timeline",
    "  v           Details beside/below",
    "  r           Reload evaluations",
    "  Ctrl+wheel  Zoom at pointer",
    "  Drag        Pan the time window",
    "  ?           Toggle this help"]

def help : List Line :=
  [[], [⟨"Keyboard Shortcuts", .strong .yellow⟩], []]
    ++ helpKeys.map (fun text => [⟨text, {}⟩])
    ++ [[], [⟨"Press any key to close", .ink .darkGray⟩]]

def helpArea (area : Rect) : Rect :=
  let width := min 60 area.width
  let height := min 22 area.height
  ⟨(area.width - width) / 2, (area.height - height) / 2, width, height⟩

def putHelp [Graphemes] (s : Screen) : Screen :=
  let area := helpArea s.area
  let s := (s.clear area).restyle area { background := some .black }
  let s := s.putPanel area " Help " true (.ink .cyan)
  s.putCut area.inner false help

def screen? [Graphemes] (a : App α) (area : Rect) : Option Screen := do
  let s ← a.putTimeline? (a.putList (.blank area))
  let s := a.putFooter (← a.putDetails? s)
  return if a.showHelp then putHelp s else s

end App

end Waterfall
