import Mathlib.Logic.Relation
import Waterfall.App.Session

set_option autoImplicit false

namespace Waterfall

open Terminal
open Relation (ReflTransGen)

namespace View

def unselected : View → View
  | .shown t => .shown { t with selected := none }
  | v => v

@[simp] theorem handle?_unselected (v : View) : v.unselected.handle? = v.handle? := by
  cases v <;> rfl

@[simp] theorem awaited?_unselected (v : View) : v.unselected.awaited? = v.awaited? := by
  cases v <;> rfl

theorem eq_of_shown? {v : View} {t : ShownTrace} (h : v.shown? = some t) : v = .shown t := by
  cases v <;> cases h
  rfl

theorem eq_empty_of_handle? {v : View} (h : v.handle? = none) : v = .empty := by
  cases v <;> first | rfl | cases h

end View

def Files.Always {β : Type} (p : β → Prop) (x : StateM Files β) : Prop :=
  ∀ files, p (x files).1

namespace Files.Always

variable {β γ : Type} {p q : β → Prop} {r : γ → Prop}

theorem pure {b : β} (h : p b) : Always p (Pure.pure b) :=
  fun _ => h

theorem bind_of {x : StateM Files γ} {f : γ → StateM Files β} (first : Always r x)
    (h : ∀ c, r c → Always p (f c)) : Always p (x >>= f) :=
  fun files => h (x files).1 (first files) (x files).2

theorem bind {x : StateM Files γ} {f : γ → StateM Files β} (h : ∀ c, Always p (f c)) :
    Always p (x >>= f) :=
  fun files => h (x files).1 (x files).2

-- Both ways to get a value go on alike.
theorem ite_bind {x y : StateM Files γ} {f : γ → StateM Files β} {c : Prop} [Decidable c]
    (yes : Always r x) (no : Always r y) (h : ∀ b, r b → Always p (f b)) :
    Always p (if c then x >>= f else y >>= f) := by
  split
  · exact yes.bind_of h
  · exact no.bind_of h

theorem imp {x : StateM Files β} (always : Always p x) (h : ∀ b, p b → q b) : Always q x :=
  fun files => h _ (always files)

end Files.Always

namespace App

/-- What the terminal and the file system tell the application, and what it does by itself. -/
inductive Event where
  | key (feed : Feed (StateM Files)) (files : Files) (action : Action)
  | mouse (e : MouseEvent)
  | choose (index : Nat)
  | cycle (forward : Bool)
  | reload
  | relist (listing : Except Error (List String))
  | fileChanged (feed : Feed (StateM Files)) (files : Files) (path : String)
  | layOut (area : Rect)
  | draw

section

variable {α : Type} [Scalar α]

def respond (a : App α) : Event → App α
  | .key feed files action => (a.execute feed action files).1
  | .mouse e => a.mouse e
  | .choose index => a.choose index
  | .cycle forward => a.cycle forward
  | .reload => a.reload
  | .relist listing => a.relist listing
  | .fileChanged feed files path => (a.fileChanged feed path files).1
  | .layOut area => a.layOut area
  | .draw => a.scrollList

end

section Moves

variable {α : Type} {a b : App α}

structure Quiet (a b : App α) : Prop where
  evaluations : b.evaluations = a.evaluations
  marked : b.marked = a.marked
  view : b.view.unselected = a.view.unselected
  loader : b.loader = a.loader

theorem Quiet.refl (a : App α) : Quiet a a := ⟨rfl, rfl, rfl, rfl⟩

/-- All that can happen at once to the list, the mark, the view and the loader. -/
inductive Move (a b : App α) : Prop where
  | quiet (same : Quiet a b)
  -- The shown evaluation is found in a new list.
  | finds (index : Nat) (handle : String) (shown : a.view.handle? = some handle)
      (listed : b.evaluations[index]? = some handle) (marked : b.marked = some index)
      (view : b.view = a.view) (loader : b.loader = a.loader)
  | closes (marked : b.marked = none) (view : b.view = .empty) (loader : b.loader = a.loader)
  -- An evaluation of the list is requested.
  | opens (index : Nat) (handle : String) (listed : b.evaluations[index]? = some handle)
      (marked : b.marked = some index) (view : b.view = .loading handle (a.loader.request handle).2)
      (loader : b.loader = (a.loader.request handle).1)
  -- The shown evaluation is requested again.
  | reopens (handle : String) (shown : a.view.handle? = some handle)
      (evaluations : b.evaluations = a.evaluations) (marked : b.marked = a.marked)
      (view : b.view = .loading handle (a.loader.request handle).2)
      (loader : b.loader = (a.loader.request handle).1)
  | trims (evaluations : b.evaluations = a.evaluations)
      (marked : b.marked = if a.evaluations.isEmpty then none
        else a.marked.map (min · (a.evaluations.length - 1)))
      (view : b.view = a.view) (loader : b.loader = a.loader)

abbrev Moves : App α → App α → Prop :=
  ReflTransGen Move

theorem Quiet.moves (same : Quiet a b) : Moves a b :=
  .single (.quiet same)

theorem quiet_requestRedraw (a : App α) : Quiet a a.requestRedraw :=
  ⟨rfl, rfl, rfl, rfl⟩

theorem quiet_gesture {β : Type} (a : App α) (f : Controller α → Controller α × β) :
    Quiet a (a.gesture f) :=
  ⟨rfl, rfl, rfl, rfl⟩

theorem moves_choose (a : App α) (index : Nat) : Moves a (a.choose index) := by
  unfold choose
  split
  · next handle listed => exact .single (.opens index handle listed rfl rfl rfl)
  · exact .refl

theorem moves_reload (a : App α) : Moves a a.reload := by
  unfold reload
  split
  · next handle shown => exact .single (.reopens handle shown rfl rfl rfl rfl)
  · exact .refl

theorem moves_cycle (a : App α) (forward : Bool) : Moves a (a.cycle forward) := by
  unfold cycle
  dsimp only
  split
  · exact .refl
  · exact moves_choose a _

-- The first evaluation is requested where none is shown.
theorem move_choose_zero {view : View} (is_empty : view = .empty) (handles : List String) :
    Move a (choose { a with evaluations := handles, view, marked := none, listTop := 0 } 0) := by
  unfold choose
  split
  · next handle listed => exact .opens 0 handle listed rfl rfl rfl
  · exact .closes rfl is_empty rfl

theorem move_remark (a : App α) (handles : List String) :
    Move a (remark { a with evaluations := handles }) := by
  unfold remark
  dsimp only
  split
  · next none_shown => exact move_choose_zero (View.eq_empty_of_handle? none_shown) handles
  · next handle shown =>
    split
    · next index found =>
      obtain ⟨inside, same, -⟩ := List.findIdx?_eq_some_iff_getElem.1 found
      refine .finds index handle shown ?_ rfl rfl rfl
      rw [List.getElem?_eq_getElem inside, of_decide_eq_true same]
    · exact move_choose_zero rfl handles

theorem moves_relist (a : App α) (listing : Except Error (List String)) :
    Moves a (a.relist listing) := by
  cases listing with
  | ok handles => exact .tail (.single (move_remark a handles)) (.quiet (quiet_requestRedraw _))
  | error e => exact .refl

theorem moves_clickList (a : App α) (line : Nat) : Moves a (a.clickList line) := by
  unfold clickList
  dsimp only
  split
  · exact .refl
  · split
    · exact moves_choose a _
    · exact .refl

theorem moves_scrollList (a : App α) : Moves a a.scrollList := by
  have trimmed : Move a a.keepMark := by
    unfold keepMark
    split
    · next nothing => exact .trims rfl (by simp [nothing]) rfl rfl
    · next some_listed => exact .trims rfl (by simp [some_listed]) rfl rfl
  unfold scrollList
  dsimp only
  split
  · exact .refl
  · split
    · exact .single trimmed
    · exact .tail (.single trimmed) (.quiet ⟨rfl, rfl, rfl, rfl⟩)

theorem always_savePreferences_of {p : App α → Prop} {a : App α}
    (h : ∀ preferences, p { a with preferences := preferences }) :
    Files.Always p a.savePreferences := by
  refine .bind fun result => ?_
  cases result with
  | ok preferences => exact .pure (h preferences)
  | error e => exact .pure (h a.preferences)

theorem always_savePreferences (a : App α) :
    Files.Always (Quiet a) a.savePreferences :=
  always_savePreferences_of fun _ => ⟨rfl, rfl, rfl, rfl⟩

-- What follows from relisting and from reloading follows from the change of a file.
theorem always_fileChanged_of {R : App α → App α → Prop} (refl : ∀ a, R a a)
    (trans : ∀ {a b c}, R a b → R b c → R a c) (relist : ∀ a listing, R a (a.relist listing))
    (reload : ∀ a, R a a.reload) (feed : Feed (StateM Files)) (a : App α) (path : String) :
    Files.Always (R a) (a.fileChanged feed path) := by
  have listed : Files.Always (R a) (a.refresh feed) :=
    .bind fun listing => .pure (relist a listing)
  refine .bind fun known => .bind fun exist => ?_
  refine .ite_bind (.pure (refl a)) listed fun b before => ?_
  dsimp only
  split
  · refine .bind fun concerned => ?_
    split
    · exact .pure (trans before (reload b))
    · exact .pure before
  · exact .pure before

theorem always_fileChanged (feed : Feed (StateM Files)) (a : App α) (path : String) :
    Files.Always (Moves a) (a.fileChanged feed path) :=
  always_fileChanged_of (fun _ => .refl) .trans moves_relist moves_reload feed a path

end Moves

section

variable {α : Type} [Scalar α]

theorem quiet_moveSelection (a : App α) (offset : Int) : Quiet a (a.moveSelection offset) := by
  unfold moveSelection
  split
  · exact .refl a
  · next t shown =>
    have same := View.eq_of_shown? shown
    unfold ShownTrace.move
    cases t.rows[t.targetRow offset]? with
    | none => exact .refl a
    | some row => exact ⟨rfl, rfl, by rw [same]; rfl, rfl⟩

theorem quiet_clickTimeline (a : App α) (x y : α) : Quiet a (a.clickTimeline x y) := by
  unfold clickTimeline
  split
  · exact .refl a
  · next t shown =>
    have same := View.eq_of_shown? shown
    split
    next controller picked _ =>
    cases picked with
    | none => exact ⟨rfl, rfl, rfl, rfl⟩
    | some row => exact ⟨rfl, rfl, by simp only [same]; rfl, rfl⟩

theorem quiet_drag (a : App α) (column : Nat) : Quiet a (a.drag column) := by
  unfold drag
  split
  · exact quiet_gesture a _
  · exact .refl a

theorem moves_perform (a : App α) (listing : Except Error (List String)) (action : Action) :
    Moves a (a.perform listing action) := by
  cases action with
  | nextEvaluation => exact moves_cycle a true
  | previousEvaluation => exact moves_cycle a false
  | moveUp => exact (quiet_moveSelection a _).moves
  | moveDown => exact (quiet_moveSelection a _).moves
  | refresh => exact (moves_relist a listing).trans (moves_reload _)
  | _ => exact Quiet.moves ⟨rfl, rfl, rfl, rfl⟩

theorem moves_act (a : App α) (listing : Except Error (List String)) (action : Action) :
    Moves a (a.act listing action) := by
  unfold act
  split
  · exact .refl
  · split
    · exact Quiet.moves ⟨rfl, rfl, rfl, rfl⟩
    · exact (moves_perform a listing action).tail (.quiet (quiet_requestRedraw _))

-- What follows from an action, whether or not the preferences are written, follows from a key.
theorem always_execute_of {R : App α → App α → Prop} (trans : ∀ {a b c}, R a b → R b c → R a c)
    (act : ∀ a listing action, R a (a.act listing action))
    (save : ∀ a : App α, Files.Always (R a) a.savePreferences)
    (feed : Feed (StateM Files)) (a : App α) (action : Action) :
    Files.Always (R a) (a.execute feed action) := by
  unfold execute
  split
  · exact .pure (act a _ action)
  · split
    · exact .bind fun listing => .pure (act a listing action)
    · split
      · exact (save _).imp fun b saved => trans (act a _ action) saved
      · exact .pure (act a _ action)

theorem always_execute (feed : Feed (StateM Files)) (a : App α) (action : Action) :
    Files.Always (Moves a) (a.execute feed action) :=
  always_execute_of .trans moves_act
    (fun a => (always_savePreferences a).imp fun _ same => same.moves) feed a action

theorem moves_press (a : App α) (e : MouseEvent) : Moves a (a.press e) := by
  unfold press
  split
  · next x y _ => exact .tail (quiet_clickTimeline a x y).moves (.quiet ⟨rfl, rfl, rfl, rfl⟩)
  · split
    · exact moves_clickList a e.line
    · exact .refl

theorem moves_mouse (a : App α) (e : MouseEvent) : Moves a (a.mouse e) := by
  unfold mouse
  dsimp only
  split
  · exact (quiet_gesture a _).moves
  · exact moves_press a e
  · exact (quiet_drag a e.column).moves
  · exact Quiet.moves ⟨rfl, rfl, rfl, rfl⟩
  · exact (quiet_gesture a _).moves
  · exact (quiet_gesture a _).moves
  · exact .refl

theorem moves_respond (a : App α) (e : Event) : Moves a (a.respond e) := by
  cases e with
  | key feed files action => exact always_execute feed a action files
  | mouse e => exact moves_mouse a e
  | choose index => exact moves_choose a index
  | cycle forward => exact moves_cycle a forward
  | reload => exact moves_reload a
  | relist listing => exact moves_relist a listing
  | fileChanged feed files path => exact always_fileChanged feed a path files
  | layOut area => exact Quiet.moves ⟨rfl, rfl, rfl, rfl⟩
  | draw => exact moves_scrollList a

end

end App

end Waterfall
