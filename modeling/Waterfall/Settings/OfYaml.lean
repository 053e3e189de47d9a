import Waterfall.DurationText
import Waterfall.Error
import Waterfall.Settings.Basic
import Waterfall.Yaml.Reader

set_option autoImplicit false

namespace Waterfall

namespace Settings

def entries? : Yaml → Option (List (Yaml × Yaml))
  | .mapping entries => some entries
  | .scalar "" true => some []
  | _ => none

abbrev Fields := List (String × Yaml)

def fields? (known : List String) (y : Yaml) : Option Fields := do
  let fields ← (← entries? y).mapM fun (key, value) => key.text?.map (·, value)
  let counts := known.map fun key => (fields.filter (·.1 = key)).length
  if counts.all (· ≤ 1) then some fields else none

def field {α : Type} (fields : Fields) (key : String) (fallback : α) (read? : Yaml → Option α) :
    Option α :=
  match Json.lookup key fields with
  | none => some fallback
  | some y => read? y

def optional {α : Type} (read? : Yaml → Option α) (y : Yaml) : Option (Option α) :=
  if y.isNull then some none else (read? y).map some

def color? (y : Yaml) : Option Color :=
  y.text?.bind Color.ofText?

def palette? (y : Yaml) : Option Palette := do
  let fields ← fields? Palette.keys y
  let pick (key : String) : Option Color := (Json.lookup key fields).bind color?
  some ⟨← pick "foreground", ← pick "muted", ← pick "background", ← pick "border", ← pick "accent"⟩

def serviceColors? (y : Yaml) : Option ColorTable := do
  let colors ← (← entries? y).mapM fun (key, value) => do some (← key.text?, ← color? value)
  some (colors.foldl (fun table (key, color) => Json.insertField key color table) [])

def duration? (y : Yaml) : Option Nat :=
  y.text?.bind DurationText.parse?

def theme? (y : Yaml) : Option Theme :=
  y.text?.bind Theme.ofName?

def logLevel? (y : Yaml) : Option LogLevel :=
  y.text?.bind LogLevel.ofName?

def size? (y : Yaml) : Option Nat :=
  y.nat? 65535

def zoom? (d : ZoomLimits Float) (y : Yaml) : Option (ZoomLimits Float) := do
  let f ← fields? ["min", "max", "step"] y
  some ⟨← field f "min" d.min Yaml.float?, ← field f "max" d.max Yaml.float?,
    ← field f "step" d.step Yaml.float?⟩

def dividersKey : String := "row_dividers"

def geometryOf? (d : Geometry Float) (y : Yaml) : Option (Geometry Float) := do
  let f ← fields? (d.sizes.map (·.1) ++ [dividersKey]) y
  let g ← d.mapSizesM fun key fallback => field f key fallback Yaml.float?
  some { g with rowDividers := ← field f dividersKey d.rowDividers Yaml.bool? }

def withUi (s : Settings) (y : Yaml) : Option Settings := do
  let f ← fields? ["theme", "palette", "service_colors", "zoom", "frame_interval"] y
  some
    { s with
      theme := ← field f "theme" s.theme theme?
      palette := ← field f "palette" s.palette (optional palette?)
      serviceColors := ← field f "service_colors" s.serviceColors serviceColors?
      zoom := ← field f "zoom" s.zoom (zoom? s.zoom)
      frameInterval := ← field f "frame_interval" s.frameInterval duration? }

def withGeometry (s : Settings) (y : Yaml) : Option Settings :=
  (geometryOf? s.geometry y).map fun g => { s with geometry := g }

def withTerminal (s : Settings) (y : Yaml) : Option Settings := do
  let f ← fields? ["label_width", "mouse", "timeline_ratio", "sidebar_width"] y
  some
    { s with
      labelWidth := ← field f "label_width" s.labelWidth size?
      mouse := ← field f "mouse" s.mouse Yaml.bool?
      timelineRatio := ← field f "timeline_ratio" s.timelineRatio fun y => y.float?.map Float.toFloat32
      sidebarWidth := ← field f "sidebar_width" s.sidebarWidth size? }

def withLogging (s : Settings) (y : Yaml) : Option Settings := do
  let f ← fields? ["level", "file"] y
  some
    { s with
      logLevel := ← field f "level" s.logLevel logLevel?
      logFile := ← field f "file" s.logFile (optional Yaml.text?) }

def withPrefs (s : Settings) (y : Yaml) : Option Settings := do
  let f ← fields? ["path", "layout_id"] y
  some
    { s with
      prefsPath := ← field f "path" s.prefsPath (optional Yaml.text?)
      layoutId := ← field f "layout_id" s.layoutId Yaml.text? }

def withWatch (s : Settings) (y : Yaml) : Option Settings := do
  let f ← fields? ["enabled", "debounce"] y
  some
    { s with
      watch := ← field f "enabled" s.watch Yaml.bool?
      debounce := ← field f "debounce" s.debounce duration? }

def sections : List (String × (Settings → Yaml → Option Settings)) :=
  [("ui", withUi), ("geometry", withGeometry), ("terminal", withTerminal),
    ("logging", withLogging), ("prefs", withPrefs), ("watch", withWatch)]

def ofYaml? (y : Yaml) : Option Settings := do
  let f ← fields? (sections.map (·.1)) y
  sections.foldlM (fun s (key, set) => field f key s (set s)) {}

def ofText (text : String) : Except Error Settings :=
  match (Yaml.parse? text).bind ofYaml? with
  | some s => .ok s
  | none => .error (.config "Failed to parse YAML config:")

def checked (s : Settings) : Except Error Settings :=
  match s.fault? with
  | none => .ok s
  | some fault => .error (.config fault.message)

end Settings

end Waterfall
