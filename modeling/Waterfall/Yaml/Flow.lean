import Waterfall.Yaml.Scalar

set_option autoImplicit false

namespace Waterfall

namespace Yaml

inductive FlowFrame where
  | sequence (items : List Yaml)
  | mapping (entries : List (Yaml × Yaml)) (key : Option Yaml)

structure FlowReading where
  frames : List FlowFrame := []
  value : Option Yaml := none
  closed : Bool := false

namespace FlowFrame

def flush (value : Option Yaml) : FlowFrame → FlowFrame
  | .sequence items => .sequence (value.toList ++ items)
  | .mapping entries (some key) => .mapping ((key, value.getD nothing) :: entries) none
  | .mapping entries none => .mapping ((value.map (·, nothing)).toList ++ entries) none

def isEmptyEntry (value : Option Yaml) : FlowFrame → Bool
  | .sequence _ => value.isNone
  | .mapping _ key => value.isNone && key.isNone

def toYaml : FlowFrame → Yaml
  | .sequence items => .sequence items.reverse
  | .mapping entries _ => .mapping entries.reverse

def closer : FlowFrame → Char
  | .sequence _ => ']'
  | .mapping .. => '}'

end FlowFrame

def FlowReading.mark? (r : FlowReading) (c : Char) : Option FlowReading :=
  match c, r.frames with
  | '[', _ => if r.value.isNone then some { r with frames := .sequence [] :: r.frames } else none
  | '{', _ => if r.value.isNone then some { r with frames := .mapping [] none :: r.frames } else none
  | ',', frame :: rest =>
    if frame.isEmptyEntry r.value then none
    else some { r with frames := frame.flush r.value :: rest, value := none }
  | ':', .mapping entries none :: rest =>
    some { r with frames := .mapping entries (some (r.value.getD nothing)) :: rest, value := none }
  | c, frame :: rest =>
    if c = frame.closer then
      some { frames := rest, value := some (frame.flush r.value).toYaml, closed := rest.isEmpty }
    else none
  | _, [] => none

def flowFrom? : Nat → FlowReading → List Char → Option (Yaml × List Char)
  | 0, _, _ => none
  | n + 1, r, cs =>
    if r.closed then r.value.map (·, cs)
    else
      match cs with
      | [] => none
      | c :: rest =>
        if isSpace c then flowFrom? n r rest
        else if isBracket c ∨ (c = ':' ∧ !beginsPlain true cs) then
          (r.mark? c).bind fun r => flowFrom? n r rest
        else if r.value.isSome then none
        else (scalar? true cs).bind fun (v, tail) => flowFrom? n { r with value := some v } tail

def flow? (cs : List Char) : Option (Yaml × List Char) :=
  flowFrom? (2 * cs.length + 2) {} cs

end Yaml

end Waterfall
