import Waterfall.App.Draw
import Waterfall.Source

set_option autoImplicit false

namespace Waterfall

open Terminal

structure Feed (m : Type → Type) where
  list : m (Except Error (List String))
  fetch : String → m Fetched

def Source.feed {m : Type → Type} [Monad m] [Storage m] (s : Source) : Feed m where
  list := s.list
  fetch := Source.fetch

namespace App

variable {m : Type → Type} [Monad m] [Storage m] {α : Type} [Scalar α]

def refresh (feed : Feed m) (a : App α) : m (App α) := do
  return a.relist (← feed.list)

-- Preferences that cannot be written are only lost.
def savePreferences (a : App α) : m (App α) := do
  match ← a.preferences.save with
  | .ok preferences => return { a with preferences := preferences }
  | .error _ => return a

def movesSplit : Action → Bool
  | .shrinkTimeline | .growTimeline => true
  | _ => false

def execute (feed : Feed m) (a : App α) (action : Action) : m (App α) := do
  if a.showHelp then return a.act (.ok []) action
  else if action = .refresh then return a.act (← feed.list) action
  else if movesSplit action then (a.act (.ok []) action).savePreferences
  else return a.act (.ok []) action

def isListed (path : String) : List String → m Bool
  | [] => return false
  | handle :: rest => do
    if ← Source.concerns handle path then return true
    isListed path rest

def fileExists (path : String) : m Bool := do
  return (← Storage.isDirectory path).toOption.isSome

def fileChanged (feed : Feed m) (a : App α) (path : String) : m (App α) := do
  let stays := (← isListed path a.evaluations) && (← fileExists path)
  let a ← if stays then pure a else a.refresh feed
  match a.view.handle? with
  | some handle => if ← Source.concerns handle path then return a.reload else return a
  | none => return a

def finish (feed : Feed m) (a : App α) : m (App α) := do
  match a.loader.running with
  | some r => return a.deliver ⟨r.ticket, r.handle, ← feed.fetch r.handle⟩
  | none => return a

def settle (feed : Feed m) (a : App α) : m (App α) := do
  if a.view.awaited?.isSome then return (← a.finish feed).drain else return a

end App

end Waterfall
