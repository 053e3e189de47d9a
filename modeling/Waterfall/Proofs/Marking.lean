import Waterfall.Proofs.Loading

set_option autoImplicit false

namespace Waterfall

namespace App

structure Marked {α : Type} (a : App α) : Prop where
  inside : ∀ i ∈ a.marked, i < a.evaluations.length
  shown : a.view.handle? = a.marked.bind (a.evaluations[·]?)

section

variable {α : Type} {a b : App α}

theorem Marked.of_some {i : Nat} {handle : String} (marked : a.marked = some i)
    (listed : a.evaluations[i]? = some handle) (shown : a.view.handle? = some handle) :
    Marked a := by
  refine ⟨?_, ?_⟩
  · rw [marked]
    rintro _ ⟨⟩
    exact (List.getElem?_eq_some_iff.1 listed).1
  · rw [shown, marked, Option.bind_some, listed]

theorem Marked.congr (marked : Marked a) (evaluations : b.evaluations = a.evaluations)
    (mark : b.marked = a.marked) (handle : b.view.handle? = a.view.handle?) : Marked b := by
  obtain ⟨inside, shown⟩ := marked
  rw [← evaluations, ← mark] at inside shown
  exact ⟨inside, handle.trans shown⟩

theorem Marked.of_loader (marked : Marked a) {loader : Loader}
    (same : b = { a with loader := loader }) : Marked b := by
  subst same
  exact ⟨marked.inside, marked.shown⟩

-- Drawing the list leaves a mark that fits where it is.
theorem Marked.trim (marked : Marked a) :
    (if a.evaluations.isEmpty then none else a.marked.map (min · (a.evaluations.length - 1))) =
      a.marked := by
  cases mark : a.marked with
  | none => split <;> rfl
  | some i =>
    have inside := marked.inside i mark
    have some_listed : a.evaluations.isEmpty = false := by
      cases listed : a.evaluations with
      | nil => simp [listed] at inside
      | cons _ _ => rfl
    have fits : min i (a.evaluations.length - 1) = i := by omega
    simp [some_listed, fits]

theorem Marked.move (marked : Marked a) (m : Move a b) : Marked b := by
  cases m with
  | quiet same =>
    refine marked.congr same.evaluations same.marked ?_
    rw [← View.handle?_unselected, same.view, View.handle?_unselected]
  | finds _ _ shown listed mark view _ => exact .of_some mark listed (view ▸ shown)
  | closes mark view _ => exact ⟨by simp [mark], by rw [mark, view]; rfl⟩
  | opens _ _ listed mark view _ => exact .of_some mark listed (by rw [view]; rfl)
  | reopens _ shown evaluations mark view _ =>
    refine marked.congr evaluations mark ?_
    rw [view, shown]
    rfl
  | trims evaluations mark view _ =>
    exact marked.congr evaluations (mark.trans marked.trim) (by rw [view])

theorem Marked.moves (marked : Marked a) (moves : Moves a b) : Marked b := by
  induction moves with
  | refl => exact marked
  | tail _ m ih => exact ih.move m

end

section

variable {α : Type} [Scalar α]

theorem takeNext_evaluations (a : App α) : a.takeNext.evaluations = a.evaluations := by
  unfold takeNext
  split <;> rfl

theorem takeNext_marked (a : App α) : a.takeNext.marked = a.marked := by
  unfold takeNext
  split <;> rfl

end

end App

namespace Session

open App (Marked)

section

variable {α : Type} {s : Session α}

theorem app_answer (s : Session α) (result : Fetched) :
    ∃ loader, (s.answer result).app = { s.app with loader := loader } := by
  unfold answer
  split
  · exact ⟨_, rfl⟩
  · exact ⟨_, rfl⟩

theorem app_late (s : Session α) (o : Outcome) :
    ∃ loader, (s.late o).app = { s.app with loader := loader } := by
  unfold late
  split
  · exact ⟨_, rfl⟩
  · exact ⟨_, rfl⟩

end

variable {α : Type} [Scalar α] {s : Session α}

-- The view goes on showing the evaluation that it waited for.
theorem Tracks.handle?_takeNext (tracks : Tracks s) :
    s.app.takeNext.view.handle? = s.app.view.handle? := by
  cases arrived : s.app.loader.arrived with
  | nil => rw [App.takeNext_of_nil arrived]
  | cons o rest =>
    rw [App.view_takeNext arrived]
    by_cases awaited : s.app.view.awaited? = some o.ticket
    · have answer := tracks.mem_answered (arrived ▸ List.mem_cons_self) awaited
      obtain ⟨handle, loading⟩ := View.eq_loading_of_awaited? awaited
      obtain ⟨asked, -⟩ := tracks.running_or_arrived loading
      cases asked.symm.trans (tracks.answers o answer)
      rw [App.view_apply awaited, View.handle?_ofResult, loading]
      rfl
    · rw [App.apply_eq_self awaited]

theorem marked_takeNext (tracks : Tracks s) (marked : Marked s.app) : Marked s.app.takeNext :=
  marked.congr s.app.takeNext_evaluations s.app.takeNext_marked tracks.handle?_takeNext

theorem marked_drain (tracks : Tracks s) (marked : Marked s.app) : Marked s.app.drain := by
  have both : Tracks { s with app := s.app.drain } ∧ Marked s.app.drain :=
    drain_of_step (P := fun s => Tracks s ∧ Marked s.app)
      (fun _ ⟨tracks, marked⟩ => ⟨tracks.takeNext, marked_takeNext tracks marked⟩)
      ⟨tracks, marked⟩
  exact both.2

theorem marked_next (tracks : Tracks s) (marked : Marked s.app) (e : Event) :
    Marked (s.next e).app := by
  cases e with
  | app e =>
    rw [next, app_advance]
    exact marked.moves (App.moves_respond s.app e)
  | answer result =>
    obtain ⟨loader, same⟩ := s.app_answer result
    exact marked.of_loader same
  | late o =>
    obtain ⟨loader, same⟩ := s.app_late o
    exact marked.of_loader same
  | takeNext => exact marked_takeNext tracks marked
  | drain => exact marked_drain tracks marked

theorem marked_run (tracks : Tracks s) (marked : Marked s.app) (events : List Event) :
    Marked (s.run events).app := by
  induction events generalizing s with
  | nil => exact marked
  | cons e rest ih => exact ih (tracks.next e) (marked_next tracks marked e)

/-- After any events an entry is marked exactly if an evaluation is shown, and it is that one. -/
theorem marked_iff_shown (controller : Controller α) (preferences : Preferences)
    (sidebarWidth : Nat) (layoutId : String) (ratio : Float32) (events : List Event) :
    let a := (run ⟨App.start controller preferences sidebarWidth layoutId ratio, none, none⟩
      events).app
    (a.marked.isSome ↔ a.view.handle?.isSome) ∧
      ∀ i, a.marked = some i →
        ∃ inside : i < a.evaluations.length, a.view.handle? = some a.evaluations[i] := by
  intro a
  have marked : Marked a :=
    marked_run (tracks_start controller preferences sidebarWidth layoutId ratio)
      ⟨by simp [App.start], rfl⟩ events
  have entry (i : Nat) (mark : a.marked = some i) :
      ∃ inside : i < a.evaluations.length, a.view.handle? = some a.evaluations[i] := by
    have inside := marked.inside i mark
    refine ⟨inside, ?_⟩
    rw [marked.shown, mark, Option.bind_some, List.getElem?_eq_getElem inside]
  refine ⟨?_, entry⟩
  cases mark : a.marked with
  | none => simp [marked.shown, mark]
  | some i =>
    obtain ⟨_, shown⟩ := entry i mark
    simp [shown]

end Session

end Waterfall
