import Waterfall.Proofs.Marking
import Waterfall.Proofs.Scrolling

set_option autoImplicit false

namespace Waterfall

open Terminal

namespace View

theorem shown_of_unselected {v w : View} {t : ShownTrace} (same : w.unselected = v.unselected)
    (shown : w = .shown t) : ∃ selected, v = .shown { t with selected := selected } := by
  subst shown
  cases v with
  | shown u =>
    obtain ⟨handle, trace, selected⟩ := u
    cases same
    exact ⟨selected, rfl⟩
  | _ => cases same

end View

namespace App

structure Steady (a b : App ℝ) : Prop where
  areas : b.areas = a.areas
  controller : a.controller.Scrolls b.controller

/-- The controller is as large as the timeline and counts the rows that are shown. -/
structure Aligned (labelWidth : ℕ) (a : App ℝ) : Prop where
  whole : a.controller.Whole labelWidth
  viewport : a.controller.viewport = ⟨a.areas.timeline.width, a.areas.timeline.height⟩
  rows : ∀ t, a.view = .shown t →
    a.controller.rowCount = t.rows.length ∧ ∃ d, t.trace = .ofDocument d

section

variable {a b c : App ℝ} {labelWidth : ℕ}

theorem Steady.refl (a : App ℝ) : Steady a a :=
  ⟨rfl, .refl _⟩

theorem Steady.trans (first : Steady a b) (second : Steady b c) : Steady a c :=
  ⟨second.areas.trans first.areas, first.controller.trans second.controller⟩

theorem Steady.of_controller (areas : b.areas = a.areas)
    (controller : b.controller = a.controller) : Steady a b :=
  ⟨areas, controller ▸ .refl _⟩

theorem steady_gesture {β : Type} {f : Controller ℝ → Controller ℝ × β}
    (scrolls : a.controller.Scrolls (f a.controller).1) : Steady a (a.gesture f) :=
  ⟨rfl, scrolls⟩

theorem steady_requestRedraw (a : App ℝ) : Steady a a.requestRedraw :=
  ⟨rfl, Controller.scrolls_requestRedraw _⟩

theorem steady_load (a : App ℝ) (handle : String) : Steady a (a.load handle) :=
  ⟨rfl, Controller.scrolls_requestRedraw _⟩

theorem steady_choose (a : App ℝ) (index : ℕ) : Steady a (a.choose index) := by
  unfold choose
  split
  next => exact ⟨rfl, Controller.scrolls_requestRedraw _⟩
  next => exact .refl a

theorem steady_reload (a : App ℝ) : Steady a a.reload := by
  unfold reload
  split
  next handle _ => exact steady_load a handle
  next => exact .refl a

theorem steady_cycle (a : App ℝ) (forward : Bool) : Steady a (a.cycle forward) := by
  unfold cycle
  dsimp only
  split
  next => exact .refl a
  next => exact steady_choose a _

theorem steady_remark (a : App ℝ) : Steady a a.remark := by
  have first (view : View) :
      Steady a (choose { a with view, marked := none, listTop := 0 } 0) := by
    have chosen := steady_choose { a with view, marked := none, listTop := 0 } 0
    exact ⟨chosen.areas, chosen.controller⟩
  unfold remark
  dsimp only
  split
  next => exact first a.view
  next =>
    split
    next => exact .of_controller rfl rfl
    next => exact first .empty

theorem steady_relist (a : App ℝ) (listing : Except Error (List String)) :
    Steady a (a.relist listing) := by
  cases listing with
  | ok handles =>
    have taken : Steady a { a with evaluations := handles } := .of_controller rfl rfl
    exact taken.trans ((steady_remark _).trans (steady_requestRedraw _))
  | error e => exact .refl a

theorem always_steady_fileChanged (feed : Feed (StateM Files)) (a : App ℝ) (path : String) :
    Files.Always (Steady a) (a.fileChanged feed path) :=
  always_fileChanged_of .refl .trans steady_relist steady_reload feed a path

theorem steady_moveSelection (a : App ℝ) (offset : ℤ) : Steady a (a.moveSelection offset) := by
  unfold moveSelection
  split
  next => exact .refl a
  next t _ =>
    split
    next row _ => exact ⟨rfl, Controller.scrolls_scrollIntoView _ row⟩
    next => exact .refl a

theorem steady_perform (a : App ℝ) (listing : Except Error (List String)) (action : Action) :
    Steady a (a.perform listing action) := by
  cases action with
  | moveUp | moveDown => exact steady_moveSelection a _
  | pageUp =>
    have up := Controller.scrolls_page a.controller (-1)
    rw [Int.cast_neg, Int.cast_one, ← Scalar.real_one] at up
    exact ⟨rfl, up⟩
  | pageDown =>
    have down := Controller.scrolls_page a.controller 1
    rw [Int.cast_one, ← Scalar.real_one] at down
    exact ⟨rfl, down⟩
  | zoomIn | zoomOut => exact steady_gesture (Controller.effect_zoomAt _ _ _).unscrolled
  | panLeft | panRight => exact steady_gesture (Controller.effect_panBy _ _).unscrolled
  | resetZoom => exact steady_gesture (Controller.effect_resetZoom _).unscrolled
  | nextEvaluation | previousEvaluation => exact steady_cycle a _
  | refresh => exact (steady_relist a listing).trans (steady_reload _)
  | _ => exact .of_controller rfl rfl

theorem steady_act (a : App ℝ) (listing : Except Error (List String)) (action : Action) :
    Steady a (a.act listing action) := by
  unfold act
  split
  next => exact .refl a
  next =>
    split
    next => exact ⟨rfl, Controller.scrolls_requestRedraw _⟩
    next => exact (steady_perform a listing action).trans (steady_requestRedraw _)

theorem always_steady_execute (feed : Feed (StateM Files)) (a : App ℝ) (action : Action) :
    Files.Always (Steady a) (a.execute feed action) :=
  always_execute_of .trans steady_act
    (fun _ => always_savePreferences_of fun _ => .of_controller rfl rfl) feed a action

theorem steady_clickTimeline (a : App ℝ) (x y : ℝ) : Steady a (a.clickTimeline x y) := by
  unfold clickTimeline
  split
  next => exact .refl a
  next t _ =>
    unfold Controller.click
    cases hit : (a.controller.hit? x y).bind fun row => t.rows[row]? with
    | none => exact .refl a
    | some row => exact ⟨rfl, Controller.scrolls_requestRedraw _⟩

theorem steady_press (a : App ℝ) (e : MouseEvent) : Steady a (a.press e) := by
  unfold press
  split
  next x y _ =>
    have held : Steady (a.clickTimeline x y)
        { a.clickTimeline x y with controller := (a.clickTimeline x y).controller.dragStart x } :=
      ⟨rfl, .of_scrollTop rfl rfl rfl rfl⟩
    exact (steady_clickTimeline a x y).trans held
  next =>
    split
    next =>
      unfold clickList
      dsimp only
      split
      next => exact .refl a
      next =>
        split
        next => exact steady_choose a _
        next => exact .refl a
    next => exact .refl a

theorem steady_drag (a : App ℝ) (column : ℕ) : Steady a (a.drag column) := by
  unfold drag
  split
  next => exact steady_gesture (Controller.effect_dragTo _ _).unscrolled
  next => exact .refl a

theorem steady_mouse (a : App ℝ) (e : MouseEvent) : Steady a (a.mouse e) := by
  unfold mouse
  dsimp only
  split
  next => exact steady_gesture (Controller.scrolls_wheel _ _ _ _ _ _)
  next => exact steady_press a e
  next => exact steady_drag a e.column
  next => exact ⟨rfl, .of_scrollTop rfl rfl rfl rfl⟩
  next => exact steady_gesture (Controller.effect_hover _ _ _).unscrolled
  next => exact steady_gesture (Controller.effect_leave _).unscrolled
  next => exact .refl a

theorem steady_scrollList (a : App ℝ) : Steady a a.scrollList := by
  have kept : Steady a a.keepMark := by
    unfold keepMark
    split
    next => exact .of_controller rfl rfl
    next => exact .of_controller rfl rfl
  unfold scrollList
  dsimp only
  split
  next => exact .refl a
  next =>
    split
    next => exact kept
    next => exact kept.trans (.of_controller rfl rfl)

theorem steady_respond (a : App ℝ) {e : Event} (inside : ∀ area, e ≠ .layOut area) :
    Steady a (a.respond e) := by
  cases e with
  | key feed files action => exact always_steady_execute feed a action files
  | mouse e => exact steady_mouse a e
  | choose index => exact steady_choose a index
  | cycle forward => exact steady_cycle a forward
  | reload => exact steady_reload a
  | relist listing => exact steady_relist a listing
  | fileChanged feed files path => exact always_steady_fileChanged feed a path files
  | layOut area => exact absurd rfl (inside area)
  | draw => exact steady_scrollList a

-- A trace that is shown after a few moves was shown before.
theorem shown_of_moves (moves : Moves a b) {t : ShownTrace} (shown : b.view = .shown t) :
    ∃ selected, a.view = .shown { t with selected := selected } := by
  induction moves using Relation.ReflTransGen.head_induction_on with
  | refl => exact ⟨t.selected, shown⟩
  | head m _ ih =>
    obtain ⟨selected, later⟩ := ih
    cases m with
    | quiet same =>
      obtain ⟨earlier, before⟩ := View.shown_of_unselected same.view later
      exact ⟨earlier, before⟩
    | finds _ _ _ _ _ view _ | trims _ _ view _ => exact ⟨selected, view ▸ later⟩
    | closes _ view _ | opens _ _ _ _ view _ | reopens _ _ _ _ view _ =>
      exact nomatch view.symm.trans later

theorem Aligned.steady (aligned : Aligned labelWidth a) (steady : Steady a b) (moves : Moves a b) :
    Aligned labelWidth b := by
  refine ⟨steady.controller.whole aligned.whole, ?_, fun t shown => ?_⟩
  · rw [steady.controller.viewport, aligned.viewport, steady.areas]
  · obtain ⟨selected, before⟩ := shown_of_moves moves shown
    have counted := aligned.rows { t with selected := selected } before
    rw [steady.controller.rowCount]
    exact counted

theorem Aligned.layOut (aligned : Aligned labelWidth a) (area : Rect) :
    Aligned labelWidth (a.layOut area) := by
  have size (width height : ℕ) :
      Viewport.ofSize (Scalar.ofNat width : ℝ) (Scalar.ofNat height) = ⟨width, height⟩ := by
    simp [Viewport.ofSize]
  unfold App.layOut
  dsimp only
  rw [size]
  refine ⟨aligned.whole.resize _ _, Controller.viewport_resize _ _, fun t shown => ?_⟩
  rw [Controller.rowCount_resize]
  exact aligned.rows t shown

theorem Aligned.apply (aligned : Aligned labelWidth a) (o : Outcome) :
    Aligned labelWidth (a.apply o) := by
  by_cases awaited : a.view.awaited? = some o.ticket
  · have loaded (v : View) (traced : ∀ t, v = .shown t → ∃ d, t.trace = .ofDocument d) :
        Aligned labelWidth
          { a with view := v, controller := (v.loadInto a.controller).requestRedraw } := by
      cases v with
      | shown t =>
        refine ⟨(Controller.scrolls_requestRedraw _).whole (aligned.whole.load _ _),
          aligned.viewport, fun u same => ?_⟩
        cases same
        exact ⟨rfl, traced t rfl⟩
      | _ =>
        refine ⟨(Controller.scrolls_requestRedraw _).whole aligned.whole, aligned.viewport,
          fun u same => ?_⟩
        cases same
    have answer := loaded (View.ofResult o.handle o.result) fun t same => ?_
    · simpa only [App.apply, View.apply, if_pos awaited] using answer
    · unfold View.ofResult at same
      split at same
      next d _ =>
        cases same
        exact ⟨d, rfl⟩
      next => cases same
      next => cases same
  · rw [apply_eq_self awaited]
    exact aligned

theorem Aligned.of_loader (aligned : Aligned labelWidth a) (loader : Loader) :
    Aligned labelWidth { a with loader := loader } :=
  ⟨aligned.whole, aligned.viewport, aligned.rows⟩

theorem Aligned.takeNext (aligned : Aligned labelWidth a) : Aligned labelWidth a.takeNext := by
  unfold App.takeNext
  split
  next => exact aligned
  next o rest _ => exact (aligned.of_loader _).apply o

theorem Aligned.respond (aligned : Aligned labelWidth a) (e : Event) :
    Aligned labelWidth (a.respond e) := by
  by_cases inside : ∀ area, e ≠ .layOut area
  next => exact aligned.steady (steady_respond a inside) (moves_respond a e)
  next =>
    obtain ⟨area, layout⟩ := not_forall_not.1 inside
    rw [layout]
    exact aligned.layOut area

theorem aligned_start (labelWidth : ℕ) (palette : Palette) (colors : ColorTable)
    (limits : ZoomLimits ℝ) (interval : ℕ) (preferences : Preferences) (sidebarWidth : ℕ)
    (layoutId : String) (ratio : Float32) :
    Aligned labelWidth (.start (.new ⟨.terminal labelWidth, palette, colors⟩ limits interval)
      preferences sidebarWidth layoutId ratio) := by
  have nothing : (@OfNat.ofNat ℝ 0 (Scalar.instOfNat 0)) = (0 : ℕ) :=
    Scalar.real_zero.trans Nat.cast_zero.symm
  have empty : Viewport.mk (@OfNat.ofNat ℝ 0 (Scalar.instOfNat 0))
      (@OfNat.ofNat ℝ 0 (Scalar.instOfNat 0)) = ⟨(0 : ℕ), (0 : ℕ)⟩ :=
    congrArg₂ Viewport.mk nothing nothing
  exact ⟨⟨rfl, ⟨0, 0, empty⟩, ⟨0, nothing⟩,
    Scalar.real_zero.trans_le (Controller.maxScroll_nonneg _)⟩, empty, fun t shown => nomatch shown⟩

end

end App

namespace Session

open App (Aligned)

variable {s : Session ℝ} {labelWidth : ℕ}

theorem aligned_next (aligned : Aligned labelWidth s.app) (e : Event) :
    Aligned labelWidth (s.next e).app := by
  cases e with
  | app e =>
    rw [next, app_advance]
    exact aligned.respond e
  | answer result =>
    obtain ⟨loader, same⟩ := s.app_answer result
    exact same ▸ aligned.of_loader loader
  | late o =>
    obtain ⟨loader, same⟩ := s.app_late o
    exact same ▸ aligned.of_loader loader
  | takeNext => exact aligned.takeNext
  | drain =>
    exact drain_of_step (P := fun s => Aligned labelWidth s.app) (fun _ h => h.takeNext) aligned

theorem aligned_run (aligned : Aligned labelWidth s.app) (events : List Event) :
    Aligned labelWidth (s.run events).app := by
  induction events generalizing s with
  | nil => exact aligned
  | cons e rest ih => exact ih (aligned_next aligned e)

end Session

end Waterfall
