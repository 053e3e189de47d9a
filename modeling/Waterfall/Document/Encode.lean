import Waterfall.Document.Basic

set_option autoImplicit false

namespace Waterfall

def optionalField {α : Type} (key : String) (write : α → Json) : Option α → List (String × Json)
  | none => []
  | some a => [(key, write a)]

def Json.word (n : UInt64) : Json := .int n.toNat

def Evaluation.toJson (e : Evaluation) : Json :=
  .ofFields <|
    [("routed", .bool e.routed), ("matchedPolicies", .ofStrings e.matchedPolicies)]
      ++ optionalField "exitReason" .string e.exitReason
      ++ optionalField "wasmDecisionSet" id e.decisionSet
      ++ optionalField "finalDecision" id e.finalDecision
      ++ optionalField "finalDecisionType" .string e.finalDecisionType

def Signal.toJson (s : Signal) : Json :=
  .ofFields <|
    [("name", .string s.name)]
      ++ optionalField "command" .string s.command
      ++ optionalField "result" id s.result
      ++ optionalField "durationMs" .float s.durationMs
      ++ optionalField "exitCode" .int s.exitCode

def SignalBlock.toJson (b : SignalBlock) : Json :=
  .ofFields <|
    optionalField "spanId" .string b.spanId
      ++ [("startTimeUnixNano", .word b.start), ("endTimeUnixNano", .word b.finish)]
      ++ optionalField "durationMs" .float b.durationMs
      ++ [("signals", .array (b.signals.map Signal.toJson))]

def Phase.toJson (p : Phase) : Json :=
  .ofFields <|
    optionalField "spanId" .string p.spanId
      ++ [("name", .string p.name), ("startTimeUnixNano", .word p.start),
        ("endTimeUnixNano", .word p.finish)]
      ++ optionalField "durationMs" .float p.durationMs
      ++ optionalField "signals" SignalBlock.toJson p.signals
      ++ optionalField "evaluation" Evaluation.toJson p.evaluation

def Enrichment.toJson (e : Enrichment) : Json :=
  .ofFields <|
    optionalField "spanId" .string e.spanId
      ++ [("startTimeUnixNano", .word e.start), ("endTimeUnixNano", .word e.finish),
        ("operations", .ofStrings e.operations)]
      ++ optionalField "enrichedEvent" id e.enrichedEvent
      ++ optionalField "durationUs" .word e.durationUs
      ++ optionalField "durationMs" .float e.durationMs

def Document.toJson (d : Document) : Json :=
  .ofFields <|
    optionalField "spanId" .string d.spanId
      ++ optionalField "traceId" .string d.traceId
      ++ optionalField "harness" id d.harness
      ++ [("startTimeUnixNano", .word d.start), ("endTimeUnixNano", .word d.finish)]
      ++ optionalField "rawEvent" id d.rawEvent
      ++ optionalField "enrich" Enrichment.toJson d.enrich
      ++ [("phases", .array (d.phases.map Phase.toJson))]
      ++ optionalField "response" id d.response
      ++ [("errors", .ofStrings d.errors)]
      ++ optionalField "totalDurationMs" .word d.totalDurationMs

end Waterfall
