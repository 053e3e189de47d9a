import Waterfall.Json.Basic

set_option autoImplicit false

namespace Waterfall

structure Evaluation where
  routed : Bool := false
  matchedPolicies : List String := []
  exitReason : Option String := none
  decisionSet : Option Json := none
  finalDecision : Option Json := none
  finalDecisionType : Option String := none
  deriving Inhabited

structure Signal where
  name : String := ""
  command : Option String := none
  result : Option Json := none
  durationMs : Option Float := none
  exitCode : Option Int := none
  deriving Inhabited

structure SignalBlock where
  spanId : Option String := none
  start : UInt64 := 0
  finish : UInt64 := 0
  durationMs : Option Float := none
  signals : List Signal := []
  deriving Inhabited

structure Phase where
  spanId : Option String := none
  name : String := ""
  start : UInt64 := 0
  finish : UInt64 := 0
  durationMs : Option Float := none
  signals : Option SignalBlock := none
  evaluation : Option Evaluation := none
  deriving Inhabited

/-- The step that prepares the event before any policy sees it. -/
structure Enrichment where
  spanId : Option String := none
  start : UInt64 := 0
  finish : UInt64 := 0
  operations : List String := []
  enrichedEvent : Option Json := none
  durationUs : Option UInt64 := none
  durationMs : Option Float := none
  deriving Inhabited

structure Document where
  spanId : Option String := none
  traceId : Option String := none
  harness : Option Json := none
  start : UInt64 := 0
  finish : UInt64 := 0
  rawEvent : Option Json := none
  enrich : Option Enrichment := none
  phases : List Phase := []
  response : Option Json := none
  errors : List String := []
  totalDurationMs : Option UInt64 := none
  deriving Inhabited

end Waterfall
