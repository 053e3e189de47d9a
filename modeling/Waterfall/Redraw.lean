set_option autoImplicit false

namespace Waterfall

structure Redraw where
  interval : Nat
  pending : Bool := false
  lastFrame : Option Nat := none

namespace Redraw

def request (r : Redraw) : Redraw :=
  { r with pending := true }

def due? (r : Redraw) (now : Nat) : Option Nat :=
  if r.pending then
    match r.lastFrame with
    | some last => some (last + r.interval - now)
    | none => some 0
  else none

def beginFrame (r : Redraw) (now : Nat) : Redraw × Bool :=
  if r.due? now = some 0 then ({ r with pending := false, lastFrame := some now }, true)
  else (r, false)

@[simp] theorem pending_request (r : Redraw) : r.request.pending = true := rfl

@[simp] theorem due?_eq_none_iff (r : Redraw) (now : Nat) :
    r.due? now = none ↔ r.pending = false := by
  unfold due?
  cases r.pending <;> cases r.lastFrame <;> simp

end Redraw

end Waterfall
