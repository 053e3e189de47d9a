import Waterfall.Proofs.Loading
import Waterfall.Proofs.Picture

set_option autoImplicit false

namespace Waterfall

open Terminal

namespace App

/-- All that a screen is drawn from. -/
structure Look (α : Type) where
  evaluations : List String
  marked : Option Nat
  listTop : Nat
  view : View
  chart : Chart α
  picture : Controller.Picture α
  split : Split
  detailsBelow : Bool
  detailsScroll : Nat
  areas : Areas
  showHelp : Bool

section

variable {α : Type} {a b c : App α}

def look (a : App α) : Look α where
  evaluations := a.evaluations
  marked := a.marked
  listTop := a.listTop
  view := a.view
  chart := a.controller.chart
  picture := a.controller.picture
  split := a.split
  detailsBelow := a.detailsBelow
  detailsScroll := a.detailsScroll
  areas := a.areas
  showHelp := a.showHelp

structure Redraws (a b : App α) : Prop where
  pending : a.controller.redraw.pending = true → b.controller.redraw.pending = true
  look : b.controller.redraw.pending = true ∨ b.look = a.look

theorem Redraws.refl (a : App α) : Redraws a a :=
  ⟨id, .inr rfl⟩

theorem Redraws.trans (first : Redraws a b) (second : Redraws b c) : Redraws a c := by
  refine ⟨fun asked => second.pending (first.pending asked), ?_⟩
  obtain asked | same := second.look
  · exact .inl asked
  · exact first.look.imp second.pending same.trans

theorem Redraws.of_pending (asked : b.controller.redraw.pending = true) : Redraws a b :=
  ⟨fun _ => asked, .inl asked⟩

theorem Redraws.of_look (redraw : b.controller.redraw = a.controller.redraw)
    (look : b.look = a.look) : Redraws a b :=
  ⟨fun asked => redraw ▸ asked, .inr look⟩

theorem Redraws.of_announces {d : Controller α} (announces : a.controller.Announces d) :
    Redraws a { a with controller := d } := by
  refine ⟨announces.pending, announces.picture.imp id fun same => ?_⟩
  simp only [App.look, announces.chart, same]

theorem redraws_choose (a : App α) (index : Nat) : Redraws a (a.choose index) := by
  unfold choose
  split
  · exact .of_pending rfl
  · exact .refl a

theorem redraws_reload (a : App α) : Redraws a a.reload := by
  unfold reload
  split
  · exact .of_pending rfl
  · exact .refl a

theorem redraws_cycle (a : App α) (forward : Bool) : Redraws a (a.cycle forward) := by
  unfold cycle
  dsimp only
  split
  · exact .refl a
  · exact redraws_choose a _

theorem redraws_relist (a : App α) (listing : Except Error (List String)) :
    Redraws a (a.relist listing) := by
  cases listing with
  | ok handles => exact .of_pending rfl
  | error e => exact .refl a

theorem always_redraws_fileChanged (feed : Feed (StateM Files)) (a : App α) (path : String) :
    Files.Always (Redraws a) (a.fileChanged feed path) :=
  always_fileChanged_of .refl .trans redraws_relist redraws_reload feed a path

end

section

variable {α : Type} [Scalar α] {a b : App α}

theorem screen?_eq_of_look [Graphemes] (same : b.look = a.look) (area : Rect) :
    b.screen? area = a.screen? area := by
  injection same with evaluations marked listTop view chart picture _ _ scroll areas help
  have scene : b.view.scene? b.controller = a.view.scene? a.controller := by
    rw [view]
    cases a.view with
    | shown t =>
      rw [View.scene?, View.scene?, Controller.scene?, Controller.scene?, chart,
        Controller.frame_eq_of_picture picture]
    | _ =>
      injection picture with viewport
      simp only [View.scene?, Controller.message, chart, viewport]
  have footer : b.footer = a.footer := by
    injection picture with _ _ zoom
    have zoomed : b.controller.isZoomed = a.controller.isZoomed := by
      rw [Controller.isZoomed, Controller.isZoomed, zoom]
    have stage : b.view.stage b.controller = a.view.stage a.controller := by
      unfold View.stage
      rw [view, zoomed]
    rw [App.footer, App.footer, stage, view, zoomed, zoom]
  have window (room : Nat) : b.listWindow room = a.listWindow room := by
    rw [listWindow, listWindow, entries, entries, evaluations, marked, listTop]
  have list (s : Screen) : b.putList s = a.putList s := by
    rw [putList, putList, areas, window, entries, entries, evaluations, marked]
  have title : b.timelineTitle = a.timelineTitle := by
    rw [timelineTitle, timelineTitle, startedText, startedText, view]
  have timeline (s : Screen) : b.putTimeline? s = a.putTimeline? s := by
    rw [putTimeline?, putTimeline?, title, areas, scene]
  have details (s : Screen) : b.putDetails? s = a.putDetails? s := by
    rw [putDetails?, putDetails?, areas, view, scroll]
  have bottom (s : Screen) : b.putFooter s = a.putFooter s := by
    rw [putFooter, putFooter, footer, areas]
  simp only [screen?, list, timeline, details, bottom, help]

theorem redraws_apply (a : App α) (o : Outcome) : Redraws a (a.apply o) := by
  by_cases awaited : a.view.awaited? = some o.ticket
  · refine .of_pending ?_
    simp only [apply, View.apply, if_pos awaited]
    rfl
  · rw [apply_eq_self awaited]
    exact .refl a

theorem redraws_takeNext (a : App α) : Redraws a a.takeNext := by
  unfold takeNext
  split
  · exact .refl a
  · next o rest _ =>
    have taken : Redraws a { a with loader := { a.loader with arrived := rest } } :=
      .of_look rfl rfl
    exact taken.trans (redraws_apply _ o)

theorem redraws_act (a : App α) (listing : Except Error (List String)) (action : Action) :
    Redraws a (a.act listing action) := by
  unfold act
  split
  · exact .refl a
  · split
    · exact .of_pending rfl
    · exact .of_pending rfl

-- Writing the preferences shows nowhere.
theorem always_redraws_execute (feed : Feed (StateM Files)) (a : App α) (action : Action) :
    Files.Always (Redraws a) (a.execute feed action) :=
  always_execute_of .trans redraws_act
    (fun _ => always_savePreferences_of fun _ => .of_look rfl rfl) feed a action

theorem redraws_clickTimeline (a : App α) (x y : α) : Redraws a (a.clickTimeline x y) := by
  unfold clickTimeline
  split
  · exact .refl a
  · next t _ =>
    unfold Controller.click
    cases (a.controller.hit? x y).bind fun row => t.rows[row]? with
    | none => exact .refl a
    | some row => exact .of_pending rfl

omit [Scalar α] in
theorem redraws_clickList (a : App α) (line : Nat) : Redraws a (a.clickList line) := by
  unfold clickList
  dsimp only
  split
  · exact .refl a
  · split
    · exact redraws_choose a _
    · exact .refl a

theorem redraws_press (a : App α) (e : MouseEvent) : Redraws a (a.press e) := by
  unfold press
  split
  · next x y _ => exact (redraws_clickTimeline a x y).trans (.of_look rfl rfl)
  · split
    · exact redraws_clickList a e.line
    · exact .refl a

theorem redraws_drag (a : App α) (column : Nat) : Redraws a (a.drag column) := by
  unfold drag
  split
  · exact .of_announces (Controller.effect_dragTo _ _).announces
  · exact .refl a

theorem redraws_mouse (a : App α) (e : MouseEvent) : Redraws a (a.mouse e) := by
  unfold mouse
  dsimp only
  split
  · exact .of_announces (Controller.effect_wheel _ _).announces
  · exact redraws_press a e
  · exact redraws_drag a e.column
  · exact .of_look rfl rfl
  · exact .of_announces (Controller.effect_hover _ _ _).announces
  · exact .of_announces (Controller.effect_leave _).announces
  · exact .refl a

def Event.isDrawing : Event → Bool
  | .layOut _ | .draw => true
  | _ => false

theorem redraws_respond (a : App α) {e : Event} (cause : e.isDrawing = false) :
    Redraws a (a.respond e) := by
  cases e with
  | key feed files action => exact always_redraws_execute feed a action files
  | mouse e => exact redraws_mouse a e
  | choose index => exact redraws_choose a index
  | cycle forward => exact redraws_cycle a forward
  | reload => exact redraws_reload a
  | relist listing => exact redraws_relist a listing
  | fileChanged feed files path => exact always_redraws_fileChanged feed a path files
  | layOut _ | draw => cases cause

end

end App

namespace Session

def Event.isDrawing : Event → Bool
  | .app e => e.isDrawing
  | _ => false

section

variable {α : Type}

theorem redraws_answer (s : Session α) (result : Fetched) :
    s.app.Redraws (s.answer result).app := by
  unfold answer
  split
  · exact .of_look rfl rfl
  · exact .refl _

theorem redraws_late (s : Session α) (o : Outcome) : s.app.Redraws (s.late o).app := by
  unfold late
  split
  · exact .of_look rfl rfl
  · exact .refl _

variable [Scalar α]

theorem redraws_drain (s : Session α) : s.app.Redraws s.app.drain :=
  drain_of_step (P := fun t => s.app.Redraws t.app)
    (fun t before => before.trans (App.redraws_takeNext t.app)) (.refl s.app)

theorem redraws_next (s : Session α) {e : Event} (cause : e.isDrawing = false) :
    s.app.Redraws (s.next e).app := by
  cases e with
  | app e =>
    rw [next, app_advance]
    exact App.redraws_respond s.app cause
  | answer result => exact redraws_answer s result
  | late o => exact redraws_late s o
  | takeNext => exact App.redraws_takeNext s.app
  | drain => exact redraws_drain s

theorem redraws_run (s : Session α) {events : List Event}
    (causes : ∀ e ∈ events, e.isDrawing = false) : s.app.Redraws (s.run events).app := by
  induction events generalizing s with
  | nil => exact .refl _
  | cons e rest ih =>
    rw [List.forall_mem_cons] at causes
    exact (redraws_next s causes.1).trans (ih (s.next e) causes.2)

end

end Session

/-- While no redraw is pending the last frame and the screen are still what would be drawn. -/
theorem redraw_pending_of_change (c : Controller Float) (run : List (Gesture Float))
    (s : Session Float) (events : List Session.Event) :
    (∀ frame, (c.frames run).getLast? = some frame →
      (c.performAll run).redraw.pending = false →
        (c.performAll run).picture = frame.picture ∧
          ∀ rows selected,
            (c.performAll run).scene rows selected = frame.scene rows selected) ∧
      (∀ g, c.zoom.k.isNaN = false → c.zoom.x.isNaN = false → c.scrollTop.isFinite = true →
        c.tells? g = some true → (c.perform g).picture ≠ c.picture) ∧
      ((∀ e ∈ events, e.isDrawing = false) →
        (s.run events).app.controller.redraw.pending = false →
          (s.run events).app.look = s.app.look ∧
            ∀ [Graphemes] area, (s.run events).app.screen? area = s.app.screen? area) := by
  refine ⟨fun frame last quiet => ?_, fun g factor shift scroll told => ?_, fun causes quiet => ?_⟩
  · obtain ⟨chart, asked | same⟩ := Controller.announces_of_last_frame last
    · exact nomatch quiet.symm.trans asked
    · exact ⟨same, Controller.scene_eq_of_picture chart same⟩
  · exact (Controller.comparable_of_finite factor shift scroll).changed_of_told told
  · obtain asked | same := (Session.redraws_run s causes).look
    · exact nomatch quiet.symm.trans asked
    · exact ⟨same, App.screen?_eq_of_look same⟩

-- Here the mouse only passes over the header after the frame.
theorem redraw_pending_of_change_passing :
    let c : Controller Float :=
      (Controller.new ⟨.standard, Theme.dark.palette, .standard⟩ ⟨1, 100, 1.25⟩ 0).performAll
        [.resize ⟨800, 400⟩, .load 3 1000]
    let run : List (Gesture Float) := [.beginFrame 0, .hover 1 1, .leave]
    let a : App Float :=
      .start (.new ⟨.terminal 36, Theme.dark.palette, .standard⟩ ⟨1, 100, 1.25⟩ 0)
        ⟨"", [], false⟩ 28 "" 0.65
    let s : Session Float := ⟨a, none, none⟩
    let events : List Session.Event := [.app (.mouse ⟨.moved, 0, 0, {}⟩)]
    (∃ frame, (c.frames run).getLast? = some frame ∧ (c.performAll run).picture = frame.picture) ∧
      c.tells? .zoomIn = some true ∧ (c.perform .zoomIn).picture ≠ c.picture ∧
      (s.run events).app.look = a.look := by
  intro c run a s events
  obtain ⟨unchanged, told, still⟩ := redraw_pending_of_change c run s events
  have zooms : c.tells? .zoomIn = some true := by decide +kernel
  obtain ⟨frame, last⟩ : ∃ frame, (c.frames run).getLast? = some frame :=
    Option.isSome_iff_exists.1 (by decide +kernel)
  refine ⟨⟨frame, last, (unchanged frame last (by decide +kernel)).1⟩, zooms,
    told _ (by decide +kernel) (by decide +kernel) (by decide +kernel) zooms, ?_⟩
  exact (still (by decide) (by decide +kernel)).1

end Waterfall
