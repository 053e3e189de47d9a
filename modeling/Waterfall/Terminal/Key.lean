set_option autoImplicit false

namespace Waterfall

namespace Terminal

inductive KeyCode where
  | char (c : Char)
  | up
  | down
  | left
  | right
  | pageUp
  | pageDown
  | tab
  | backTab
  | function (n : Nat)
  | other
  deriving DecidableEq

structure KeyPress where
  code : KeyCode
  ctrl : Bool := false
  released : Bool := false

inductive Action where
  | quit
  | moveUp
  | moveDown
  | pageUp
  | pageDown
  | detailsUp
  | detailsDown
  | nextEvaluation
  | previousEvaluation
  | zoomIn
  | zoomOut
  | panLeft
  | panRight
  | resetZoom
  | shrinkTimeline
  | growTimeline
  | toggleSplit
  | refresh
  | toggleHelp
  | none
  deriving DecidableEq

namespace Action

def ofChar (c : Char) (ctrl : Bool) : Action :=
  match c with
  | 'q' => quit
  | 'c' => if ctrl then quit else none
  | 'k' => moveUp
  | 'j' => moveDown
  | 'u' => if ctrl then pageUp else none
  | 'd' => if ctrl then pageDown else none
  | 'K' => detailsUp
  | 'J' => detailsDown
  | '+' | '=' => zoomIn
  | '-' | '_' => zoomOut
  | 'h' => panLeft
  | 'l' => panRight
  | '0' => resetZoom
  | '[' => shrinkTimeline
  | ']' => growTimeline
  | 'v' => toggleSplit
  | 'r' => refresh
  | '?' => toggleHelp
  | _ => none

def ofKey (k : KeyPress) : Action :=
  if k.released then none
  else
    match k.code with
    | .char c => ofChar c k.ctrl
    | .up => moveUp
    | .down => moveDown
    | .left => panLeft
    | .right => panRight
    | .pageUp => pageUp
    | .pageDown => pageDown
    | .tab => nextEvaluation
    | .backTab => previousEvaluation
    | .function n => if n = 1 then toggleHelp else none
    | .other => none

end Action

end Terminal

end Waterfall
