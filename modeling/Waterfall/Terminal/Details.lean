import Waterfall.Json.Printer
import Waterfall.Label
import Waterfall.Row
import Waterfall.Terminal.Panel

set_option autoImplicit false

namespace Waterfall

namespace Terminal

def statusSymbol : Status → String
  | .error => "✖"
  | .warning => "⚠"
  | .ok => "●"

def statusInk : Status → Ink
  | .error => .red
  | .warning => .yellow
  | .ok => .green

namespace Details

def field (label value : String) (ink : Ink) : Line :=
  [⟨label, .ink .gray⟩, ⟨value, .ink ink⟩]

def dataLines (data : Json) : List Line :=
  match data with
  | .null => []
  | data =>
    [[⟨"", {}⟩], [⟨"Data", .ink .gray⟩]]
      ++ (linesOf data.pretty).map fun l => [⟨l, .ink .white⟩]

def lines? (row : Row) : Option (List Line) := do
  let span := row.span
  let start ← Label.duration? span.start
  let duration ← Label.duration? span.duration
  return [[⟨span.name, .strong .white⟩],
    field "Span ID: " span.id .cyan,
    field "Parent: " (span.parent.getD "(root)") .cyan,
    field "Service: " span.service.name .magenta,
    [⟨"Status: ", .ink .gray⟩,
      ⟨statusSymbol span.status ++ " " ++ span.status.name, .strong (statusInk span.status)⟩],
    field "Start: " ("+" ++ start) .white,
    field "Duration: " duration .yellow,
    field "Depth: " (toString row.depth) .white]
    ++ (if span.approximate then [[⟨"Timing is approximate", .ink .yellow⟩]] else [])
    ++ dataLines span.data

def hint : List Line :=
  [[⟨"Select a span to see its details", .ink .darkGray⟩]]

end Details

def Details.content? : Option Row → Option (List Line)
  | some row => lines? row
  | none => some hint

def Screen.putDetails? [Graphemes] (s : Screen) (area : Rect) (row : Option Row) (scroll : Nat) :
    Option Screen := do
  let lines ← Details.content? row
  let area := area.intersect s.area
  let s := s.putPanel area " SPAN DETAILS " false (.ink .darkGray)
  return s.putWrapped area.inner scroll lines

end Terminal

end Waterfall
