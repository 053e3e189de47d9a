import Waterfall.DurationText
import Waterfall.Settings.Basic
import Waterfall.Yaml.Printer

set_option autoImplicit false

namespace Waterfall

namespace Settings

def record (fields : List (String × Yaml)) : Yaml :=
  .mapping (fields.map fun (key, value) => (.ofString key, value))

def colorYaml (c : Color) : Yaml := .ofString (toString c)

def paletteYaml (p : Palette) : Yaml :=
  record (p.colors.map fun (key, c) => (key, colorYaml c))

def geometryYaml (g : Geometry Float) : Yaml :=
  record ((g.sizes.map fun (key, x) => (key, .ofFloat x)) ++ [("row_dividers", .ofBool g.rowDividers)])

def duration (nanos : Nat) : Yaml := .ofString (DurationText.write nanos)

def uiYaml (s : Settings) : Yaml :=
  record [("theme", .ofString s.theme.name), ("palette", .ofOption paletteYaml s.palette),
    ("service_colors", record (s.serviceColors.map fun (key, c) => (key, colorYaml c))),
    ("zoom", record [("min", .ofFloat s.zoom.min), ("max", .ofFloat s.zoom.max),
      ("step", .ofFloat s.zoom.step)]),
    ("frame_interval", duration s.frameInterval)]

def terminalYaml (s : Settings) : Yaml :=
  record [("label_width", .ofNat s.labelWidth), ("mouse", .ofBool s.mouse),
    ("timeline_ratio", .ofFloat32 s.timelineRatio), ("sidebar_width", .ofNat s.sidebarWidth)]

def toYaml (s : Settings) : Yaml :=
  record [("ui", uiYaml s), ("geometry", geometryYaml s.geometry), ("terminal", terminalYaml s),
    ("logging", record [("level", .ofString s.logLevel.name),
      ("file", .ofOption .ofString s.logFile)]),
    ("prefs", record [("path", .ofOption .ofString s.prefsPath), ("layout_id", .ofString s.layoutId)]),
    ("watch", record [("enabled", .ofBool s.watch), ("debounce", duration s.debounce)])]

def themeTitle : Theme → String
  | .dark => "Dark"
  | .light => "Light"

def report (s : Settings) : String :=
  "Configuration is valid!\n" ++ "  Theme: " ++ themeTitle s.theme ++ "\n"
    ++ "  Zoom: " ++ floatText s.zoom.min ++ "x to " ++ floatText s.zoom.max ++ "x, step "
    ++ floatText s.zoom.step ++ "\n"
    ++ "  Frame interval: " ++ DurationText.brief s.frameInterval ++ "\n"
    ++ "  Label width: " ++ toString s.labelWidth ++ " columns\n"
    ++ "  Watch: " ++ (if s.watch then "true" else "false") ++ "\n"
    ++ s.toYaml.text

end Settings

end Waterfall
