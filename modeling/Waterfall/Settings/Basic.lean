import Waterfall.Decimal.Text
import Waterfall.Geometry
import Waterfall.Palette
import Waterfall.Zoom
import Waterfall.Text.Blank

set_option autoImplicit false

namespace Waterfall

inductive LogLevel where
  | trace
  | debug
  | info
  | warn
  | error
  deriving DecidableEq

namespace LogLevel

def name : LogLevel → String
  | .trace => "trace"
  | .debug => "debug"
  | .info => "info"
  | .warn => "warn"
  | .error => "error"

def ofName? (s : String) : Option LogLevel :=
  [trace, debug, info, warn, error].find? (·.name = s)

end LogLevel

structure Settings where
  theme : Theme := .dark
  palette : Option Palette := none
  serviceColors : ColorTable := []
  zoom : ZoomLimits Float := ⟨1, 100, 1.25⟩
  -- The shortest time between two frames, in nanoseconds.
  frameInterval : Nat := 16000000
  geometry : Geometry Float := .standard
  labelWidth : Nat := 36
  mouse : Bool := true
  timelineRatio : Float32 := 0.65
  sidebarWidth : Nat := 28
  logLevel : LogLevel := .info
  logFile : Option String := none
  prefsPath : Option String := none
  layoutId : String := "timeline-details"
  watch : Bool := false
  -- Changes within this time count as one, in nanoseconds.
  debounce : Nat := 200000000
  debug : Bool := false

structure Settings.Changes where
  theme : Option Theme := none
  labelWidth : Option Nat := none
  mouse : Option Bool := none
  watch : Option Bool := none
  logFile : Option String := none
  prefsPath : Option String := none
  debug : Option Bool := none

inductive Settings.Fault where
  | zoomMin (k : Float)
  | zoomMax (max min : Float)
  | zoomStep (factor : Float)
  | frameInterval
  | geometry (fault : Geometry.Fault Float)
  | labelWidth
  | timelineRatio (ratio : Float32)
  | layoutId

def Settings.Fault.message : Settings.Fault → String
  | .zoomMin k => "zoom.min must be at least 1, got " ++ floatText k
  | .zoomMax max min =>
    "zoom.max (" ++ floatText max ++ ") must not be below zoom.min (" ++ floatText min ++ ")"
  | .zoomStep factor => "zoom.step must be greater than 1, got " ++ floatText factor
  | .frameInterval => "frame_interval must be greater than 0"
  | .geometry fault => fault.message floatText
  | .labelWidth => "terminal.label_width must be greater than 0"
  | .timelineRatio ratio =>
    "terminal.timeline_ratio must be between 0.1 and 0.9, got " ++ float32Text ratio
  | .layoutId => "prefs.layout_id must not be empty"

namespace Settings

def fault? (s : Settings) : Option Fault :=
  if s.zoom.min < 1 then some (.zoomMin s.zoom.min)
  else if s.zoom.max < s.zoom.min then some (.zoomMax s.zoom.max s.zoom.min)
  else if s.zoom.step ≤ 1 then some (.zoomStep s.zoom.step)
  else if s.frameInterval = 0 then some .frameInterval
  else
    match s.geometry.fault? with
    | some fault => some (.geometry fault)
    | none =>
      if s.labelWidth = 0 then some .labelWidth
      else if ¬ (0.1 ≤ s.timelineRatio ∧ s.timelineRatio ≤ 0.9) then
        some (.timelineRatio s.timelineRatio)
      else if (trim s.layoutId).isEmpty then some .layoutId
      else none

def change (s : Settings) (c : Changes) : Settings :=
  { s with
    theme := c.theme.getD s.theme
    labelWidth := c.labelWidth.getD s.labelWidth
    mouse := c.mouse.getD s.mouse
    watch := c.watch.getD s.watch
    logFile := c.logFile.or s.logFile
    prefsPath := c.prefsPath.or s.prefsPath
    debug := c.debug.getD s.debug }

def effectivePalette (s : Settings) : Palette :=
  s.palette.getD s.theme.palette

end Settings

end Waterfall
