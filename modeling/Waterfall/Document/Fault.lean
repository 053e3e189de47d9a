import Waterfall.Json.Printer
import Waterfall.Text.Quoted
import Waterfall.Document.Decode

set_option autoImplicit false

namespace Waterfall

inductive Document.Fault where
  | wrongKind (found expected : String)
  | duplicate (field : String)
  | tooLong (length : Nat)
  deriving DecidableEq

namespace Document.Fault

def message : Fault → String
  | .wrongKind found expected => "invalid type: " ++ found ++ ", expected " ++ expected
  | .duplicate field => "duplicate field `" ++ field ++ "`"
  | .tooLong length => "invalid length " ++ toString length ++ ", expected fewer elements in array"

def kindOf : Json → String
  | .null => "null"
  | .bool b => "boolean `" ++ (if b then "true" else "false") ++ "`"
  | .int n => "integer `" ++ toString n ++ "`"
  | .float x => "floating point `" ++ Json.floatForm x ++ "`"
  | .single x => "floating point `" ++ Json.singleForm x ++ "`"
  | .string s => "string " ++ quoted s
  | .array _ => "sequence"
  | .object _ => "map"

abbrev Check := Json → Option Fault

def wrong (expected : String) (j : Json) : Option Fault :=
  some (.wrongKind (kindOf j) expected)

def anything : Check := fun _ => none

def text : Check
  | .string _ => none
  | j => wrong "a string" j

def flag : Check
  | .bool _ => none
  | j => wrong "a boolean" j

def listOf (item : Check) : Check
  | .array items => items.findSome? item
  | j => wrong "a sequence" j

-- Null stands for a value that is left out.
def orNull (check : Check) : Check
  | .null => none
  | j => check j

-- The fields of an object, in order; a second spelling of a field is a fault.
def ofFields (checks : List (FieldName × Check)) : List String → List (String × Json) → Option Fault
  | _, [] => none
  | seen, (key, v) :: rest =>
    match checks.find? fun (name, _) => name.camel = key ∨ name.snake = key with
    | none => ofFields checks seen rest
    | some (name, check) =>
      if name.camel ∈ seen then some (.duplicate name.camel)
      else (check v).or (ofFields checks (name.camel :: seen) rest)

def record (name : String) (checks : List (FieldName × Check)) : Check
  | .object fields => ofFields checks [] fields
  | .array items =>
    ((checks.zip items).findSome? fun ((_, check), v) => check v).or
      (if checks.length < items.length then some (.tooLong items.length) else none)
  | j => wrong ("struct " ++ name) j

def fieldsOf (names : List FieldName) (checks : List Check) : List (FieldName × Check) :=
  names.zip checks

def evaluation : Check :=
  record "EvaluationResult" <| fieldsOf Evaluation.fieldNames
    [orNull flag, orNull (listOf text), orNull text, anything, anything, orNull text]

def signal : Check :=
  record "SignalExecution" <| fieldsOf Signal.fieldNames
    [orNull text, orNull text, anything, anything, anything]

def signals : Check :=
  record "SignalsPhase" <| fieldsOf SignalBlock.fieldNames
    [orNull text, anything, anything, anything, orNull (listOf signal)]

def phase : Check :=
  record "PolicyPhase" <| fieldsOf Phase.fieldNames
    [orNull text, orNull text, anything, anything, anything, orNull signals, orNull evaluation]

def enrichment : Check :=
  record "EnrichPhase" <| fieldsOf Enrichment.fieldNames
    [orNull text, anything, anything, orNull (listOf text), anything, anything, anything]

def document : Check :=
  record "TraceDocument" <| fieldsOf Document.fieldNames
    [orNull text, orNull text, anything, anything, anything, anything, orNull enrichment,
      orNull (listOf phase), anything, orNull (listOf text), anything]

def ofJson (j : Json) : Fault :=
  (document j).getD (.wrongKind (kindOf j) "struct TraceDocument")

end Document.Fault

end Waterfall
