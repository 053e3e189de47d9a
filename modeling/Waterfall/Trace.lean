import Waterfall.Row
import Waterfall.Span.OfDocument

set_option autoImplicit false

namespace Waterfall

/-- Seconds since 1970, and nanoseconds of the second. -/
structure Instant where
  seconds : Nat
  nanos : Nat

def Instant.ofNanos? (n : UInt64) : Option Instant :=
  if n = 0 then none else some ⟨n.toNat / 1000000000, n.toNat % 1000000000⟩

structure Trace where
  spans : List Span
  rows : List Row
  startedAt : Option Instant

namespace Trace

def ofSpans (spans : List Span) : Trace :=
  ⟨spans, Row.ofSpans spans, none⟩

def ofDocument (d : Document) : Trace :=
  { ofSpans (Span.ofDocument d) with startedAt := Instant.ofNanos? d.start }

def rowOf? (t : Trace) (id : String) : Option Row :=
  t.rows.find? (·.span.id = id)

def extent (t : Trace) : UInt64 :=
  Span.latest t.spans

end Trace

end Waterfall
