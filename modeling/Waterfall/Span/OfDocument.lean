import Waterfall.Document.Encode
import Waterfall.Span.Ids
import Waterfall.Span.Timing

set_option autoImplicit false

namespace Waterfall

namespace Document

def eventText? (d : Document) (camel snake : String) : Option String :=
  d.rawEvent.bind fun event => ((event.get? camel).or (event.get? snake)).bind Json.string?

def harnessLabel? (d : Document) : Option String :=
  match d.harness with
  | some (.string s) => if s = "" then none else some s
  | some (.object fields) =>
    match (Json.field? "type" fields).or (Json.field? "name" fields), fields with
    | some (.string s), _ => some s
    | _, [(key, _)] => some key
    | _, _ => none
  | _ => none

def label (d : Document) : String :=
  match d.eventText? "hookEventName" "hook_event_name", d.eventText? "toolName" "tool_name" with
  | some event, some tool => event ++ ": " ++ tool
  | some event, none => event
  | none, _ => d.harnessLabel?.getD "Evaluation"

end Document

def Phase.status (p : Phase) : Status :=
  Decision.classify (p.evaluation.bind Evaluation.decision?)

def Document.status (d : Document) : Status :=
  let errors := if d.errors.isEmpty then Status.ok else .error
  let response := Decision.classify (d.response.bind Decision.ofJson?)
  (errors.worst response).worst (.worstOf (d.phases.map Phase.status))

def Signal.status (s : Signal) : Status :=
  match s.exitCode with
  | some code => if code = 0 then .ok else .error
  | none => .ok

def Evaluation.label (e : Evaluation) : String :=
  match e.decision? with
  | some decision => "Eval: " ++ decision
  | none =>
    match e.exitReason with
    | some reason =>
      if reason = "" then "Evaluation" else "Exit: " ++ String.ofList (reason.toList.take 20)
    | none => "Evaluation"

namespace Span

def root (id : String) (t : Timing) (d : Document) : Span where
  id := id
  parent := none
  name := d.label
  service := .root
  start := t.start
  duration := t.duration
  status := d.status
  approximate := t.approximate
  data := .ofFields
    [("traceId", .ofOption .string d.traceId), ("harness", d.harness.getD .null),
      ("rawEvent", d.rawEvent.getD .null), ("response", d.response.getD .null),
      ("errors", .ofStrings d.errors), ("totalDurationMs", .ofOption .word d.totalDurationMs)]

def enrich (parent id : String) (t : Timing) (e : Enrichment) : Span where
  id := id
  parent := some parent
  name := "Enrich"
  service := .enrich
  start := t.start
  duration := t.duration
  status := .ok
  approximate := t.approximate
  data := .ofFields
    [("operations", .ofStrings e.operations), ("enrichedEvent", e.enrichedEvent.getD .null)]

def phase (parent id : String) (index : Nat) (t : Timing) (p : Phase) : Span where
  id := id
  parent := some parent
  name := if p.name = "" then "phase " ++ toString index else p.name
  service := .ofPhase p.name
  start := t.start
  duration := t.duration
  status := p.status
  approximate := t.approximate
  data := .ofFields
    [("name", .string p.name), ("durationMs", .ofOption .float p.durationMs),
      ("evaluation", .ofOption Evaluation.toJson p.evaluation)]

def signals (parent id : String) (t : Timing) (b : SignalBlock) : Span where
  id := id
  parent := some parent
  name := "Signals (" ++ toString b.signals.length ++ ")"
  service := .signals
  start := t.start
  duration := t.duration
  status := .worstOf (b.signals.map Signal.status)
  approximate := t.approximate
  data := .ofFields
    [("count", .int b.signals.length), ("durationMs", .ofOption .float b.durationMs)]

def signal (parent id : String) (index : Nat) (t : Timing) (s : Signal) : Span where
  id := id
  parent := some parent
  name := if s.name = "" then "signal " ++ toString index else s.name
  service := .signal
  start := t.start
  duration := t.duration
  status := s.status
  approximate := t.approximate
  data := .ofFields
    [("name", .string s.name), ("command", .ofOption .string s.command),
      ("result", s.result.getD .null), ("durationMs", .ofOption .float s.durationMs),
      ("exitCode", .ofOption .int s.exitCode)]

def evaluation (parent id : String) (t : Timing) (status : Status) (e : Evaluation) : Span where
  id := id
  parent := some parent
  name := e.label
  service := .evaluation
  start := t.start
  duration := t.duration
  status := status
  approximate := t.approximate
  data := e.toJson

def eachSignal (parent : String) : Nat → List String → List Timing → List Signal → List Span
  | index, id :: ids, t :: ts, s :: rest =>
    signal parent id index t s :: eachSignal parent (index + 1) ids ts rest
  | _, _, _, _ => []

def ofSignals (origin : Origin) (ids : PhaseIds) (around : Timing) : Option SignalBlock → List Span
  | none => []
  | some b =>
    match ids.signals with
    | none => []
    | some (own, each) =>
      let t := Timing.signals origin around b
      let share := Timing.share t.duration b.signals.length
      signals ids.phase own t b ::
        eachSignal own 0 each (Timing.inTurn share t.start b.signals) b.signals

def ofEvaluation (ids : PhaseIds) (around : Timing) (status : Status) : Option Evaluation → List Span
  | none => []
  | some e =>
    match ids.evaluation with
    | none => []
    | some own => [evaluation ids.phase own (Timing.evaluation around) status e]

def ofPhase (origin : Origin) (total : UInt64) (root : String) (index : Nat) (ids : PhaseIds)
    (p : Phase) : List Span :=
  let t := Timing.phase origin total p
  phase root ids.phase index t p ::
    (ofSignals origin ids t p.signals ++ ofEvaluation ids t p.status p.evaluation)

def ofPhases (origin : Origin) (total : UInt64) (root : String) :
    Nat → List PhaseIds → List Phase → List Span
  | index, ids :: rest, p :: phases =>
    ofPhase origin total root index ids p ++ ofPhases origin total root (index + 1) rest phases
  | _, _, _ => []

def ofEnrich (origin : Origin) (root : String) (id : Option String) : Option Enrichment → List Span
  | none => []
  | some e =>
    match id with
    | none => []
    | some own => [enrich root own (Timing.enrich origin e) e]

def latest (spans : List Span) : UInt64 :=
  (spans.map Span.finish).foldl (fun a b => if a < b then b else a) 0

def cover (root : Span) (inner : List Span) : Span :=
  if root.duration < latest inner then { root with duration := latest inner } else root

def ofDocument (d : Document) : List Span :=
  let ids := DocumentIds.ofDocument d
  let origin := Origin.ofDocument d
  let t := Timing.root d
  let inner := ofEnrich origin ids.root ids.enrich d.enrich
    ++ ofPhases origin t.duration ids.root 0 ids.phases d.phases
  cover (root ids.root t d) inner :: inner

end Span

end Waterfall
