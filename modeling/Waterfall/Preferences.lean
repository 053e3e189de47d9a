import Waterfall.Binary
import Waterfall.Json.Printer
import Waterfall.Json.Reader
import Waterfall.Storage

set_option autoImplicit false

namespace Waterfall

/-- The part of the timeline beside the details and above them. -/
structure Split where
  horizontal : Float32
  vertical : Float32

namespace Split

def clampRatio (r : Float32) : Float32 :=
  if r.isFinite then (if r < 0.1 then 0.1 else if 0.9 < r then 0.9 else r) else 0.5

def clamped (s : Split) : Split :=
  ⟨clampRatio s.horizontal, clampRatio s.vertical⟩

def uniform (ratio : Float32) : Split :=
  clamped ⟨ratio, ratio⟩

instance : BEq Split where
  beq a b := a.horizontal == b.horizontal && a.vertical == b.vertical

def toJson (s : Split) : Json :=
  .object [("horizontal", .single s.horizontal), ("vertical", .single s.vertical)]

def ratioOfJson? : Json → Option Float32
  | .int n => some (Binary.finite (n < 0) n.natAbs 0).toFloat32
  | .float x => some (Binary.narrow x)
  | _ => none

def only? (key : String) (fields : List (String × Json)) : Option Json :=
  match fields.filter (·.1 = key) with
  | [(_, v)] => some v
  | _ => none

def ofJson? : Json → Option Split
  | .object fields => do
    let horizontal ← (only? "horizontal" fields).bind ratioOfJson?
    let vertical ← (only? "vertical" fields).bind ratioOfJson?
    some ⟨horizontal, vertical⟩
  | .array [h, v] => do some ⟨← ratioOfJson? h, ← ratioOfJson? v⟩
  | _ => none

end Split

abbrev Splits := List (String × Split)

namespace Splits

def toJson (splits : Splits) : Json :=
  .object [("splits", .object (splits.map fun (id, s) => (id, s.toJson)))]

def ofFields? (fields : List (String × Json)) : Option Splits :=
  fields.foldlM (fun splits (id, j) => (Split.ofJson? j).map fun s => Json.insertField id s splits) []

def ofValue? : Json → Option Splits
  | .object fields => ofFields? fields
  | _ => none

-- The splits of a whole file, where an object or an array may hold them or leave them out.
def ofJson? : Json → Option Splits
  | .object fields =>
    match fields.filter (·.1 = "splits") with
    | [] => some []
    | [(_, j)] => ofValue? j
    | _ => none
  | .array [] => some []
  | .array [j] => ofValue? j
  | _ => none

def ofText? (text : String) : Option Splits :=
  (Json.read text).toOption.bind ofJson?

end Splits

/-- The splits of a file, and whether they have changed since they were read or written. -/
structure Preferences where
  path : String
  splits : Splits
  changed : Bool := false

namespace Preferences

variable {m : Type → Type} [Monad m] [Storage m]

-- A file that cannot be read says nothing.
def ofContent (path : String) (content : Except IoFault String) : Preferences where
  path := path
  splits := (content.toOption.bind Splits.ofText?).getD []

def load (path : String) : m Preferences := do
  return ofContent path (← Storage.read path)

def split (p : Preferences) (layout : String) (fallback : Float32) : Split :=
  match Json.lookup layout p.splits with
  | some s => s.clamped
  | none => .uniform fallback

def setSplit (p : Preferences) (layout : String) (s : Split) : Preferences :=
  let s := s.clamped
  if (Json.lookup layout p.splits).any (· == s) then p
  else { p with splits := Json.insertField layout s p.splits, changed := true }

def text (p : Preferences) : String :=
  p.splits.toJson.pretty

def save (p : Preferences) : m (Except Error Preferences) := do
  if !p.changed then return .ok p
  match Path.parent? p.path with
  | some parent =>
    match ← Storage.makeDirectories parent with
    | .ok () => write
    | .error fault => return .error (.io fault)
  | none => write
where
  write : m (Except Error Preferences) := do
    let draft := Path.withExtension p.path "json.tmp"
    match ← Storage.write draft p.text with
    | .error fault => return .error (.io fault)
    | .ok () =>
      match ← Storage.rename draft p.path with
      | .error fault =>
        return .error (.prefs ("Failed to replace " ++ quoted p.path ++ ": " ++ fault.message))
      | .ok () => return .ok { p with changed := false }

end Preferences

end Waterfall
