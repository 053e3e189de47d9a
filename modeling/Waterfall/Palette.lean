import Waterfall.Color
import Waterfall.Span.Basic

set_option autoImplicit false

namespace Waterfall

structure Palette where
  foreground : Color
  muted : Color
  background : Color
  border : Color
  accent : Color
  deriving DecidableEq, Inhabited

def Palette.selection (p : Palette) : Color :=
  p.accent.mix p.background 0.7

def Palette.hover (p : Palette) : Color :=
  p.muted.mix p.background 0.85

namespace Palette

def keys : List String := ["foreground", "muted", "background", "border", "accent"]

def colors (p : Palette) : List (String × Color) :=
  keys.zip [p.foreground, p.muted, p.background, p.border, p.accent]

def colorOfJson? (j : Option Json) : Option Color :=
  (j.bind Json.string?).bind Color.ofText?

def ofJson? (j : Json) : Option Palette :=
  let values : List (Option Json) :=
    match j with
    | .object fields => keys.map fun key => Json.field? key fields
    | .array items => items.map some
    | _ => []
  match values with
  | [foreground, muted, background, border, accent] => do
    some ⟨← colorOfJson? foreground, ← colorOfJson? muted, ← colorOfJson? background,
      ← colorOfJson? border, ← colorOfJson? accent⟩
  | _ => none

end Palette

inductive Theme where
  | dark
  | light
  deriving DecidableEq, Inhabited

namespace Theme

def name : Theme → String
  | .dark => "dark"
  | .light => "light"

def ofName? : String → Option Theme
  | "dark" => some .dark
  | "light" => some .light
  | _ => none

def palette : Theme → Palette
  | .dark =>
    { foreground := .ofHex 0xe5e7eb
      muted := .ofHex 0x9ca3af
      background := .ofHex 0x111827
      border := .ofHex 0x374151
      accent := .ofHex 0x60a5fa }
  | .light =>
    { foreground := .ofHex 0x111827
      muted := .ofHex 0x6b7280
      background := .ofHex 0xffffff
      border := .ofHex 0xe5e7eb
      accent := .ofHex 0x2563eb }

end Theme

abbrev ColorTable := List (String × Color)

namespace ColorTable

def fallback : Color := .ofHex 0x9ca3af

def standard : ColorTable :=
  [("Root", .ofHex 0x6366f1),
    ("Root-Block", .ofHex 0xef4444),
    ("Root-Ask", .ofHex 0xf59e0b),
    ("Enrich", .ofHex 0x06b6d4),
    ("Global", .ofHex 0x8b5cf6),
    ("Global-Block", .ofHex 0xdc2626),
    ("Global-Ask", .ofHex 0xd97706),
    ("Project", .ofHex 0x3b82f6),
    ("Project-Block", .ofHex 0xdc2626),
    ("Project-Ask", .ofHex 0xd97706),
    ("Catalog", .ofHex 0x14b8a6),
    ("Catalog-Block", .ofHex 0xdc2626),
    ("Catalog-Ask", .ofHex 0xd97706),
    ("Phase", .ofHex 0x64748b),
    ("Phase-Block", .ofHex 0xdc2626),
    ("Phase-Ask", .ofHex 0xd97706),
    ("Signals", .ofHex 0xeab308),
    ("Signal", .ofHex 0xfacc15),
    ("Signal-Block", .ofHex 0xef4444),
    ("Evaluation", .ofHex 0x22c55e),
    ("Evaluation-Block", .ofHex 0xef4444),
    ("Evaluation-Ask", .ofHex 0xf97316)]

def overlay (entries : ColorTable) : ColorTable :=
  entries ++ standard

def find? (table : ColorTable) (key : String) : Option Color :=
  Json.lookup key table

def qualifier? : Status → Option String
  | .ok => none
  | .warning => some "-Ask"
  | .error => some "-Block"

def colorOf (table : ColorTable) (service : Service) (status : Status) : Color :=
  let qualified := (qualifier? status).bind fun q => table.find? (service.name ++ q)
  (qualified.or (table.find? service.name)).getD fallback

end ColorTable

end Waterfall
