import Waterfall.Controller
import Waterfall.Error
import Waterfall.Path
import Waterfall.Trace

set_option autoImplicit false

namespace Waterfall

variable {α : Type} [Scalar α]

abbrev Ticket := Nat

structure ShownTrace where
  handle : String
  trace : Trace
  selected : Option String

/-- What a finished request says: a document, that none was recorded, or why it failed. -/
abbrev Fetched := Except Error (Option Document)

structure Outcome where
  ticket : Ticket
  handle : String
  result : Fetched

inductive View where
  | empty
  | loading (handle : String) (ticket : Ticket)
  | failed (handle : String) (message : String) (retryable : Bool)
  | shown (trace : ShownTrace)

inductive View.Stage where
  | empty
  | loading
  | failed
  | rendered
  | zoomed
  deriving DecidableEq

def View.Stage.name : View.Stage → String
  | .empty => "empty"
  | .loading => "loading"
  | .failed => "failed"
  | .rendered => "rendered"
  | .zoomed => "zoomed"

namespace ShownTrace

def rows (t : ShownTrace) : List Row := t.trace.rows

def selectedRow? (t : ShownTrace) : Option Row :=
  t.selected.bind t.trace.rowOf?

def select (t : ShownTrace) (id : String) : ShownTrace :=
  { t with selected := some id }

def targetRow (t : ShownTrace) (offset : Int) : Nat :=
  match t.selectedRow? with
  | some row => min (row.index + offset).toNat (t.rows.length - 1)
  | none => 0

def move (t : ShownTrace) (offset : Int) : ShownTrace × Option Nat :=
  match t.rows[t.targetRow offset]? with
  | some row => (t.select row.span.id, some (t.targetRow offset))
  | none => (t, none)

end ShownTrace

namespace View

def awaited? : View → Option Ticket
  | .loading _ ticket => some ticket
  | _ => none

def handle? : View → Option String
  | .empty => none
  | .loading handle _ => some handle
  | .failed handle _ _ => some handle
  | .shown trace => some trace.handle

def shown? : View → Option ShownTrace
  | .shown trace => some trace
  | _ => none

def canRetry : View → Bool
  | .failed _ _ retryable => retryable
  | _ => false

def stage (v : View) (c : Controller α) : Stage :=
  match v with
  | .empty => .empty
  | .loading .. => .loading
  | .failed .. => .failed
  | .shown _ => if c.isZoomed then .zoomed else .rendered

def failure (text : String) : String :=
  "Failed to load trace: " ++ text

def ofResult (handle : String) : Fetched → View
  | .ok (some document) => .shown ⟨handle, Trace.ofDocument document, none⟩
  | .ok none => .failed handle (failure "no trace recorded") false
  | .error e => .failed handle (failure e.message) e.recoverable

def loadInto (v : View) (c : Controller α) : Controller α :=
  match v with
  | .shown t => c.load t.rows.length t.trace.extent
  | _ => c

def apply (v : View) (c : Controller α) (o : Outcome) : View × Controller α × Bool :=
  if v.awaited? = some o.ticket then
    let next := ofResult o.handle o.result
    (next, (next.loadInto c).requestRedraw, true)
  else (v, c, false)

theorem apply_of_ne {v : View} {o : Outcome} (h : v.awaited? ≠ some o.ticket) (c : Controller α) :
    v.apply c o = (v, c, false) := by
  simp [apply, h]

def message? : View → Option String
  | .empty => some "No evaluation selected"
  | .loading handle _ => some ("Loading trace " ++ handleLabel handle ++ "…")
  | .failed _ message _ => some message
  | .shown _ => none

def scene (v : View) (c : Controller α) : Scene α :=
  match v with
  | .shown t => c.scene t.rows t.selected
  | v => c.message (v.message?.getD "")

def scene? (v : View) (c : Controller α) : Option (Scene α) :=
  match v with
  | .shown t => c.scene? t.rows t.selected
  | v => some (c.message (v.message?.getD ""))

end View

end Waterfall
