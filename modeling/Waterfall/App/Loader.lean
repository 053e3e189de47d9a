import Waterfall.View

set_option autoImplicit false

namespace Waterfall

structure Request where
  ticket : Ticket
  handle : String

structure Loader where
  count : Nat := 0
  running : Option Request := none
  arrived : List Outcome := []

namespace Loader

def latest? (l : Loader) : Option Ticket :=
  if l.count = 0 then none else some l.count

def request (l : Loader) (handle : String) : Loader × Ticket :=
  let ticket := l.count + 1
  ({ l with count := ticket, running := some ⟨ticket, handle⟩ }, ticket)

@[simp] theorem running_request (l : Loader) (handle : String) :
    (l.request handle).1.running = some ⟨(l.request handle).2, handle⟩ := rfl

def deliver (l : Loader) (o : Outcome) : Loader :=
  { l with
    arrived := l.arrived ++ [o]
    running := l.running.filter (·.ticket ≠ o.ticket) }

end Loader

end Waterfall
