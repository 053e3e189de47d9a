import Waterfall.App.Loader
import Waterfall.Export
import Waterfall.Preferences
import Waterfall.Terminal.Areas
import Waterfall.Terminal.Key

set_option autoImplicit false

namespace Waterfall

open Terminal

structure App (α : Type) where
  sidebarWidth : Nat
  layoutId : String
  evaluations : List String := []
  marked : Option Nat := none
  listTop : Nat := 0
  view : View := .empty
  controller : Controller α
  loader : Loader := {}
  preferences : Preferences
  split : Split
  detailsBelow : Bool := false
  detailsScroll : Nat := 0
  areas : Areas := {}
  showHelp : Bool := false
  quits : Bool := false

variable {α : Type} [Scalar α]

namespace App

def start (controller : Controller α) (preferences : Preferences) (sidebarWidth : Nat)
    (layoutId : String) (ratio : Float32) : App α where
  sidebarWidth := sidebarWidth
  layoutId := layoutId
  controller := controller
  preferences := preferences
  split := preferences.split layoutId ratio

def requestRedraw (a : App α) : App α :=
  { a with controller := a.controller.requestRedraw }

def gesture {β : Type} (a : App α) (f : Controller α → Controller α × β) : App α :=
  { a with controller := (f a.controller).1 }

def load (a : App α) (handle : String) : App α :=
  let (loader, ticket) := a.loader.request handle
  { a with
    loader := loader
    view := .loading handle ticket
    detailsScroll := 0 }.requestRedraw

def choose (a : App α) (index : Nat) : App α :=
  match a.evaluations[index]? with
  | some handle => { a with marked := some index }.load handle
  | none => a

def reload (a : App α) : App α :=
  match a.view.handle? with
  | some handle => a.load handle
  | none => a

def remark (a : App α) : App α :=
  let first (a : App α) : App α := { a with marked := none, listTop := 0 }.choose 0
  match a.view.handle? with
  | none => first a
  | some handle =>
    match a.evaluations.findIdx? (· = handle) with
    | some index => { a with marked := some index }
    | none => first { a with view := .empty }

def relist (a : App α) (listing : Except Error (List String)) : App α :=
  match listing with
  | .ok handles => { a with evaluations := handles }.remark.requestRedraw
  | .error _ => a

def deliver (a : App α) (o : Outcome) : App α :=
  { a with loader := a.loader.deliver o }

def apply (a : App α) (o : Outcome) : App α :=
  let (view, controller, _) := a.view.apply a.controller o
  { a with view := view, controller := controller }

def drain (a : App α) : App α :=
  a.loader.arrived.foldl apply { a with loader := { a.loader with arrived := [] } }

def layOut (a : App α) (area : Rect) : App α :=
  let areas := Areas.ofArea area a.sidebarWidth a.split a.detailsBelow
  { a with
    areas := areas
    controller := a.controller.resize
      (.ofSize (Scalar.ofNat areas.timeline.width) (Scalar.ofNat areas.timeline.height)) }

def splitStep : Float32 := 0.05

def adjustSplit (a : App α) (delta : Float32) : App α :=
  let moved :=
    if a.detailsBelow then { a.split with vertical := a.split.vertical + delta }
    else { a.split with horizontal := a.split.horizontal + delta }
  let split := moved.clamped
  { a with split := split, preferences := a.preferences.setSplit a.layoutId split }

def moveSelection (a : App α) (offset : Int) : App α :=
  match a.view.shown? with
  | none => a
  | some trace =>
    match trace.move offset with
    | (trace, some row) =>
      { a with
        view := .shown trace
        controller := (a.controller.scrollIntoView row).1
        detailsScroll := 0 }
    | (_, none) => a

def cycle (a : App α) (forward : Bool) : App α :=
  let count := a.evaluations.length
  if count = 0 then a
  else
    a.choose <|
      match a.marked with
      | some i => if forward then (i + 1) % count else (i + count - 1) % count
      | none => 0

def scrollDetails (a : App α) (down : Bool) : App α :=
  { a with
    detailsScroll := if down then min (a.detailsScroll + 1) 65535 else a.detailsScroll - 1 }

def perform (a : App α) (listing : Except Error (List String)) : Action → App α
  | .quit => { a with quits := true }
  | .moveUp => a.moveSelection (-1)
  | .moveDown => a.moveSelection 1
  | .pageUp => a.gesture (·.page (-1))
  | .pageDown => a.gesture (·.page 1)
  | .detailsUp => a.scrollDetails false
  | .detailsDown => a.scrollDetails true
  | .nextEvaluation => a.cycle true
  | .previousEvaluation => a.cycle false
  | .zoomIn => a.gesture Controller.zoomIn
  | .zoomOut => a.gesture Controller.zoomOut
  | .panLeft => a.gesture Controller.panLeft
  | .panRight => a.gesture Controller.panRight
  | .resetZoom => a.gesture Controller.resetZoom
  | .shrinkTimeline => a.adjustSplit (-splitStep)
  | .growTimeline => a.adjustSplit splitStep
  | .toggleSplit => { a with detailsBelow := !a.detailsBelow }
  | .refresh => (a.relist listing).reload
  | .toggleHelp => { a with showHelp := true }
  | .none => a

def act (a : App α) (listing : Except Error (List String)) (action : Action) : App α :=
  if action = .none then a
  else if a.showHelp then { a with showHelp := false }.requestRedraw
  else (a.perform listing action).requestRedraw

inductive MouseKind where
  | wheel (dx dy : Int)
  | press
  | drag
  | release
  | moved
  | other

structure MouseEvent where
  kind : MouseKind
  column : Nat
  line : Nat
  modifiers : Modifiers := {}

def timelinePoint? (a : App α) (column line : Nat) : Option (α × α) :=
  let area := a.areas.timeline
  if area.Contains column line then
    some (Scalar.ofNat (column - area.x) + 0.5, Scalar.ofNat (line - area.y) + 0.5)
  else none

def clickList (a : App α) (line : Nat) : App α :=
  let inner := a.areas.sidebar.inner
  if line < inner.y ∨ inner.bottom ≤ line then a
  else
    let index := a.listTop + (line - inner.y)
    if index < a.evaluations.length ∧ a.marked ≠ some index then a.choose index else a

def clickTimeline (a : App α) (x y : α) : App α :=
  match a.view.shown? with
  | none => a
  | some trace =>
    let (controller, picked) := a.controller.click x y trace.rows
    let a := { a with controller := controller }
    match picked with
    | some row => { a with view := .shown (trace.select row.span.id), detailsScroll := 0 }
    | none => a

def press (a : App α) (e : MouseEvent) : App α :=
  match a.timelinePoint? e.column e.line with
  | some (x, y) =>
    let a := a.clickTimeline x y
    { a with controller := a.controller.dragStart x }
  | none =>
    if a.areas.sidebar.Contains e.column e.line then a.clickList e.line else a

def drag (a : App α) (column : Nat) : App α :=
  if a.controller.dragOrigin.isSome then
    a.gesture (·.dragTo (Scalar.ofNat column - Scalar.ofNat a.areas.timeline.x + 0.5))
  else a

def mouse (a : App α) (e : MouseEvent) : App α :=
  let point := a.timelinePoint? e.column e.line
  match e.kind, point with
  | .wheel dx dy, some (x, y) =>
    a.gesture (·.wheel ⟨x, y, Scalar.ofInt dx, Scalar.ofInt dy, e.modifiers⟩)
  | .press, _ => a.press e
  | .drag, _ => a.drag e.column
  | .release, _ => { a with controller := a.controller.dragEnd }
  | .moved, some (x, y) => a.gesture (·.hover x y)
  | .moved, none => a.gesture Controller.leave
  | _, _ => a

end App

def App.ofSettings (s : Settings) (preferences : Preferences) : App Float :=
  let chart := { s.chart with geometry := .terminal s.labelWidth }
  .start (.new chart s.zoom s.frameInterval) preferences s.sidebarWidth s.layoutId s.timelineRatio

end Waterfall
