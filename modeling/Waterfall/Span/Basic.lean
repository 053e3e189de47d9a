import Waterfall.Decision

set_option autoImplicit false

namespace Waterfall

inductive Service where
  | root
  | enrich
  | global
  | project
  | catalog
  | phase
  | signals
  | signal
  | evaluation
  deriving DecidableEq, Inhabited

namespace Service

def all : List Service :=
  [.root, .enrich, .global, .project, .catalog, .phase, .signals, .signal, .evaluation]

def name : Service → String
  | .root => "Root"
  | .enrich => "Enrich"
  | .global => "Global"
  | .project => "Project"
  | .catalog => "Catalog"
  | .phase => "Phase"
  | .signals => "Signals"
  | .signal => "Signal"
  | .evaluation => "Evaluation"

def ofName? (s : String) : Option Service :=
  all.find? (·.name = s)

def ofPhase (name : String) : Service :=
  if name = "global" then .global
  else if name = "project" then .project
  else if "catalog:".toList.isPrefixOf name.toList then .catalog
  else .phase

end Service

def Micros.limit : Nat := UInt64.size - 1

def Micros.clip (n : Nat) : UInt64 :=
  .ofNat (min n Micros.limit)

def Micros.add (a b : UInt64) : UInt64 :=
  Micros.clip (a.toNat + b.toNat)

structure Span where
  id : String
  parent : Option String
  name : String
  service : Service
  start : UInt64
  duration : UInt64
  status : Status
  approximate : Bool
  data : Json
  deriving Inhabited

def Span.finish (s : Span) : UInt64 :=
  Micros.add s.start s.duration

def Span.isRoot (s : Span) : Bool :=
  s.parent.isNone

def Span.fields (s : Span) : List (String × Json) :=
  [("spanId", .string s.id)]
    ++ (match s.parent with | some p => [("parentId", .string p)] | none => [])
    ++ [("name", .string s.name), ("serviceName", .string s.service.name),
      ("startTime", .int s.start.toNat), ("duration", .int s.duration.toNat),
      ("status", .string s.status.name), ("timingIsApproximate", .bool s.approximate),
      ("data", s.data)]

-- The fields keep this order.
def Span.toJson (s : Span) : Json :=
  .object s.fields

theorem Micros.toNat_clip (n : Nat) : (Micros.clip n).toNat = min n Micros.limit := by
  simp only [Micros.clip, Micros.limit, UInt64.size, UInt64.toNat_ofNat']
  omega

theorem Micros.toNat_add (a b : UInt64) :
    (Micros.add a b).toNat = min (a.toNat + b.toNat) Micros.limit := by
  rw [Micros.add, Micros.toNat_clip]

end Waterfall
