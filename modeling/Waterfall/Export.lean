import Waterfall.Controller
import Waterfall.Json.Printer
import Waterfall.Settings.Basic
import Waterfall.Svg
import Waterfall.Trace

set_option autoImplicit false

namespace Waterfall

structure Picture where
  width : Nat := 1200
  height : Nat := 600
  zoom : Float := 1
  anchor : UInt64 := 0
  scroll : Float := 0
  selected : Option String := none

def Settings.chart (s : Settings) : Chart Float where
  geometry := s.geometry
  palette := s.effectivePalette
  colors := .overlay s.serviceColors

def Picture.controller (p : Picture) (s : Settings) (rowCount : Nat) (extent : UInt64) :
    Controller Float :=
  let c := Controller.new s.chart s.zoom s.frameInterval
  let c := c.resize (.ofSize (Scalar.ofNat p.width) (Scalar.ofNat p.height))
  let c := c.load rowCount extent
  let c := if p.zoom == 1 then c else (c.zoomAt (c.scale.apply p.anchor.toFloat) p.zoom).1
  (c.scrollTo p.scroll).1

namespace Trace

def spansText (t : Trace) : String :=
  (Json.array (t.spans.map Span.toJson)).pretty

def rowsText (t : Trace) : String :=
  (Json.array (t.rows.map Row.toJson)).pretty

def picture (t : Trace) (s : Settings) (p : Picture) : Scene Float :=
  (p.controller s t.rows.length t.extent).scene t.rows p.selected

def picture? (t : Trace) (s : Settings) (p : Picture) : Option (Scene Float) :=
  (p.controller s t.rows.length t.extent).scene? t.rows p.selected

end Trace

end Waterfall
