import Waterfall.Document.Basic
import Waterfall.Document.Fields
import Waterfall.Document.Lenient

set_option autoImplicit false

namespace Waterfall

open FieldName (word)

namespace FieldName

def spanId : FieldName := ⟨"spanId", "span_id"⟩
def start : FieldName := ⟨"startTimeUnixNano", "start_time_unix_nano"⟩
def finish : FieldName := ⟨"endTimeUnixNano", "end_time_unix_nano"⟩
def durationMs : FieldName := ⟨"durationMs", "duration_ms"⟩

end FieldName

namespace Evaluation

def fieldNames : List FieldName :=
  [word "routed", ⟨"matchedPolicies", "matched_policies"⟩, ⟨"exitReason", "exit_reason"⟩,
    ⟨"wasmDecisionSet", "wasm_decision_set"⟩, ⟨"finalDecision", "final_decision"⟩,
    ⟨"finalDecisionType", "final_decision_type"⟩]

def ofValues? : List (Option Json) → Option Evaluation
  | [routed, policies, reason, set, decision, type] => do
    let routed ← Lenient.flag? routed
    let policies ← Lenient.texts? policies
    let reason ← Lenient.text? reason
    let type ← Lenient.text? type
    some ⟨routed, policies, reason, Lenient.payload set, Lenient.payload decision, type⟩
  | _ => none

def ofJson? (j : Json) : Option Evaluation :=
  (fieldValues? fieldNames j).bind ofValues?

end Evaluation

namespace Signal

def fieldNames : List FieldName :=
  [word "name", word "command", word "result", .durationMs, ⟨"exitCode", "exit_code"⟩]

def ofValues? : List (Option Json) → Option Signal
  | [name, command, result, duration, code] => do
    let name ← Lenient.name? name
    let command ← Lenient.text? command
    some ⟨name, command, Lenient.payload result, Lenient.number duration, Lenient.code code⟩
  | _ => none

def ofJson? (j : Json) : Option Signal :=
  (fieldValues? fieldNames j).bind ofValues?

end Signal

namespace SignalBlock

def fieldNames : List FieldName :=
  [.spanId, .start, .finish, .durationMs, word "signals"]

def ofValues? : List (Option Json) → Option SignalBlock
  | [id, start, finish, duration, signals] => do
    let id ← Lenient.text? id
    let signals ← Lenient.list? Signal.ofJson? signals
    some ⟨id, Lenient.nanos start, Lenient.nanos finish, Lenient.number duration, signals⟩
  | _ => none

def ofJson? (j : Json) : Option SignalBlock :=
  (fieldValues? fieldNames j).bind ofValues?

end SignalBlock

namespace Phase

def fieldNames : List FieldName :=
  [.spanId, word "name", .start, .finish, .durationMs, word "signals", word "evaluation"]

def ofValues? : List (Option Json) → Option Phase
  | [id, name, start, finish, duration, signals, evaluation] => do
    let id ← Lenient.text? id
    let name ← Lenient.name? name
    let signals ← Lenient.record? SignalBlock.ofJson? signals
    let evaluation ← Lenient.record? Evaluation.ofJson? evaluation
    some ⟨id, name, Lenient.nanos start, Lenient.nanos finish, Lenient.number duration, signals,
      evaluation⟩
  | _ => none

def ofJson? (j : Json) : Option Phase :=
  (fieldValues? fieldNames j).bind ofValues?

end Phase

namespace Enrichment

def fieldNames : List FieldName :=
  [.spanId, .start, .finish, word "operations", ⟨"enrichedEvent", "enriched_event"⟩,
    ⟨"durationUs", "duration_us"⟩, .durationMs]

def ofValues? : List (Option Json) → Option Enrichment
  | [id, start, finish, operations, event, micros, millis] => do
    let id ← Lenient.text? id
    let operations ← Lenient.texts? operations
    some ⟨id, Lenient.nanos start, Lenient.nanos finish, operations, Lenient.payload event,
      Lenient.count micros, Lenient.number millis⟩
  | _ => none

def ofJson? (j : Json) : Option Enrichment :=
  (fieldValues? fieldNames j).bind ofValues?

end Enrichment

namespace Document

def fieldNames : List FieldName :=
  [.spanId, ⟨"traceId", "trace_id"⟩, word "harness", .start, .finish, ⟨"rawEvent", "raw_event"⟩,
    word "enrich", word "phases", word "response", word "errors",
    ⟨"totalDurationMs", "total_duration_ms"⟩]

def ofValues? : List (Option Json) → Option Document
  | [id, traceId, harness, start, finish, event, enrich, phases, response, errors, total] => do
    let id ← Lenient.text? id
    let traceId ← Lenient.text? traceId
    let enrich ← Lenient.record? Enrichment.ofJson? enrich
    let phases ← Lenient.list? Phase.ofJson? phases
    let errors ← Lenient.texts? errors
    some ⟨id, traceId, Lenient.payload harness, Lenient.nanos start, Lenient.nanos finish,
      Lenient.payload event, enrich, phases, Lenient.payload response, errors,
      Lenient.count total⟩
  | _ => none

def ofJson? (j : Json) : Option Document :=
  (fieldValues? fieldNames j).bind ofValues?

end Document

end Waterfall
