import Waterfall.Binary
import Waterfall.Span.Basic

set_option autoImplicit false

namespace Waterfall

abbrev Origin := UInt64

structure Timing where
  start : UInt64
  duration : UInt64
  approximate : Bool

namespace Timing

-- Both the count and the quotient are rounded to double precision, then the result to the nearest
-- microsecond.
def microsOfNanos (n : Nat) : UInt64 :=
  Micros.clip ((Dyadic.nearest n 1).scale 1 1000).round

def atLeastOne (n : UInt64) : UInt64 :=
  if n = 0 then 1 else n

def microsOfMillis? (ms : Float) : Option UInt64 :=
  match Binary.ofFloat ms with
  | .finite negative m q =>
    if negative ∧ m ≠ 0 then none
    else some (atLeastOne (Micros.clip ((Dyadic.mk m q).scale 1000 1).round))
  | _ => none

def offset? (origin : Origin) (nanos : UInt64) : Option UInt64 :=
  if nanos = 0 then none else some (microsOfNanos (nanos.toNat - origin.toNat))

def measured? (start finish : UInt64) : Option UInt64 :=
  if start = 0 ∨ finish ≤ start then none
  else some (atLeastOne (microsOfNanos (finish.toNat - start.toNat)))

def orElse (start duration : Option UInt64) (start' duration' : UInt64) : Timing :=
  ⟨start.getD start', duration.getD duration', start.isNone || duration.isNone⟩

def root (d : Document) : Timing :=
  .orElse (some 0) (measured? d.start d.finish) 0 1

-- The reported duration of the preparation counts more than the measured one.
def enrich (origin : Origin) (e : Enrichment) : Timing :=
  let reported := (e.durationUs.map atLeastOne).or (e.durationMs.bind microsOfMillis?)
  .orElse (offset? origin e.start) (reported.or (measured? e.start e.finish)) 0 1

def remainder (total start : UInt64) : UInt64 :=
  atLeastOne (.ofNat (total.toNat - start.toNat))

def phase (origin : Origin) (total : UInt64) (p : Phase) : Timing :=
  let start := offset? origin p.start
  .orElse start ((measured? p.start p.finish).or (p.durationMs.bind microsOfMillis?)) 0
    (remainder total (start.getD 0))

def signals (origin : Origin) (around : Timing) (b : SignalBlock) : Timing :=
  .orElse (offset? origin b.start)
    ((measured? b.start b.finish).or (b.durationMs.bind microsOfMillis?)) around.start
    around.duration

def share (block : UInt64) (count : Nat) : UInt64 :=
  atLeastOne (.ofNat (block.toNat / max count 1))

def inTurn (share : UInt64) : UInt64 → List Signal → List Timing
  | _, [] => []
  | start, s :: rest =>
    let reported := s.durationMs.bind microsOfMillis?
    let duration := reported.getD share
    ⟨start, duration, reported.isNone⟩ :: inTurn share (Micros.add start duration) rest

-- One fifth, as near as double precision has it.
def evaluationShare : Dyadic := .nearest 1 5

def evaluation (around : Timing) : Timing :=
  let fifth := (Dyadic.nearest around.duration.toNat 1).scale evaluationShare.num evaluationShare.den
  let duration := atLeastOne (Micros.clip fifth.floor)
  ⟨around.start + .ofNat (around.duration.toNat - duration.toNat), duration, true⟩

end Timing

def Origin.ofDocument (d : Document) : Origin :=
  if 0 < d.start then d.start
  else
    let starts := (d.enrich.map (·.start)).toList ++
      d.phases.flatMap fun p => [p.start, (p.signals.map (·.start)).getD 0]
    ((starts.filter (0 < ·)).min?).getD 0

end Waterfall
