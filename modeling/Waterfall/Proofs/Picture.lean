import Mathlib.Data.List.Induction
import Waterfall.Proofs.Double.Order
import Waterfall.Proofs.Gestures

set_option autoImplicit false

namespace Waterfall

namespace Controller

/-- All that a scene is drawn from, apart from the rows and the chart. -/
structure Picture (α : Type) where
  viewport : Viewport α
  base : Scale α
  zoom : Zoom α
  scrollTop : α
  hovered : Option Nat

def picture {α : Type} (c : Controller α) : Picture α :=
  ⟨c.viewport, c.base, c.zoom, c.scrollTop, c.hovered⟩

/-- A change of the picture leaves a redraw pending, and what was pending before stays so. -/
structure Announces {α : Type} (c d : Controller α) : Prop where
  chart : d.chart = c.chart
  pending : c.redraw.pending = true → d.redraw.pending = true
  picture : d.redraw.pending = true ∨ d.picture = c.picture

section

variable {α : Type} {c d : Controller α}

theorem Announces.refl (c : Controller α) : Announces c c :=
  ⟨rfl, id, .inr rfl⟩

theorem Announces.of_pending (chart : d.chart = c.chart) (asked : d.redraw.pending = true) :
    Announces c d :=
  ⟨chart, fun _ => asked, .inl asked⟩

theorem Announces.of_picture (chart : d.chart = c.chart) (redraw : d.redraw = c.redraw)
    (picture : d.picture = c.picture) : Announces c d :=
  ⟨chart, fun asked => redraw ▸ asked, .inr picture⟩

end

variable {α : Type} [Scalar α] {c d : Controller α}

theorem frame_eq_of_picture (same : d.picture = c.picture) (rows : List Row)
    (selected : Option String) : d.frame rows selected = c.frame rows selected := by
  injection same with viewport base zoom scrollTop hovered
  simp only [frame, scale, viewport, base, zoom, scrollTop, hovered]

theorem scene_eq_of_picture (chart : d.chart = c.chart) (same : d.picture = c.picture)
    (rows : List Row) (selected : Option String) :
    d.scene rows selected = c.scene rows selected := by
  rw [scene, scene, chart, frame_eq_of_picture same]

theorem Effect.announces {tops : α → Prop} {r : Controller α × Bool} (effect : Effect c tops r) :
    Announces c r.1 := by
  cases effect with
  | stays origin => exact .of_picture rfl rfl rfl
  | asks | zooms _ _ _ | scrolls _ _ | hovers _ => exact .of_pending rfl rfl

theorem announces_resize (c : Controller α) (viewport : Viewport α) :
    Announces c (c.resize viewport) := by
  unfold resize
  split
  · exact .refl c
  · exact .of_pending rfl rfl

def draws (c : Controller α) : Gesture α → Bool
  | .beginFrame now => (c.beginFrame now).2
  | _ => false

theorem announces_perform (c : Controller α) {g : Gesture α} (quiet : c.draws g = false) :
    Announces c (c.perform g) := by
  by_cases acts : g.acts = true
  · obtain ⟨tops, effect⟩ := effect_perform c acts
    exact effect.announces
  · cases g with
    | load rowCount extent => exact .of_pending rfl rfl
    | resize viewport => exact announces_resize c viewport
    | beginFrame now =>
      -- A frame that is not due leaves everything as it is.
      simp only [draws, beginFrame, Redraw.beginFrame] at quiet
      simp only [perform, beginFrame, Redraw.beginFrame]
      split at quiet
      · cases quiet
      · next not_due =>
        rw [if_neg not_due]
        exact .refl c
    | _ => exact absurd rfl acts

theorem of_draws {g : Gesture α} (drawn : c.draws g = true) :
    (c.perform g).chart = c.chart ∧ (c.perform g).picture = c.picture := by
  cases g with
  | beginFrame now => exact ⟨rfl, rfl⟩
  | _ => cases drawn

def frames (c : Controller α) : List (Gesture α) → List (Controller α)
  | [] => []
  | g :: rest => (if c.draws g then [c] else []) ++ (c.perform g).frames rest

theorem frames_append (c : Controller α) (run more : List (Gesture α)) :
    c.frames (run ++ more) = c.frames run ++ (c.performAll run).frames more := by
  induction run generalizing c with
  | nil => rfl
  | cons g rest ih => rw [List.cons_append, frames, ih, ← List.append_assoc]; rfl

theorem performAll_append (c : Controller α) (run more : List (Gesture α)) :
    c.performAll (run ++ more) = (c.performAll run).performAll more :=
  List.foldl_append

-- Since the last frame the picture has changed only if a redraw is pending.
theorem announces_of_last_frame {frame : Controller α} {run : List (Gesture α)}
    (last : (c.frames run).getLast? = some frame) :
    (c.performAll run).chart = frame.chart ∧
      ((c.performAll run).redraw.pending = true ∨ (c.performAll run).picture = frame.picture) := by
  induction run using List.reverseRecOn with
  | nil => cases last
  | append_singleton run g ih =>
    rw [frames_append] at last
    rw [performAll_append]
    by_cases drawn : (c.performAll run).draws g = true
    · simp only [frames, drawn, if_true, List.append_nil, List.getLast?_concat,
        Option.some.injEq] at last
      obtain ⟨chart, picture⟩ := of_draws drawn
      exact last ▸ ⟨chart, .inr picture⟩
    · have quiet := Bool.eq_false_iff.2 drawn
      simp only [frames, quiet, Bool.false_eq_true, if_false, List.append_nil] at last
      obtain ⟨chart, before⟩ := ih last
      have step := announces_perform (c.performAll run) quiet
      refine ⟨step.chart.trans chart, ?_⟩
      obtain asked | same := step.picture
      · exact .inl asked
      · exact before.imp step.pending same.trans

structure Comparable (c : Controller α) : Prop where
  factor : (c.zoom.k == c.zoom.k) = true
  shift : (c.zoom.x == c.zoom.x) = true
  scroll : Scalar.abs (c.scrollTop - c.scrollTop) < Scalar.epsilon

theorem Comparable.picture_ne_of_told (comparable : c.Comparable) {tops : α → Prop}
    {r : Controller α × Bool} (effect : Effect c tops r) (told : r.2 = true) :
    r.1.picture ≠ c.picture := by
  intro same
  injection same with _ _ zoom_eq scroll_eq hovered_eq
  cases effect with
  | stays _ | asks => cases told
  | @zooms _ zoom _ differs =>
    change zoom = c.zoom at zoom_eq
    rw [zoom_eq, comparable.factor, comparable.shift] at differs
    exact differs rfl
  | @scrolls top _ apart =>
    change Scalar.clamp top 0 c.maxScroll = c.scrollTop at scroll_eq
    rw [scroll_eq] at apart
    exact apart comparable.scroll
  | hovers other => exact other hovered_eq

theorem Comparable.changed_of_told (comparable : c.Comparable) {g : Gesture α}
    (told : c.tells? g = some true) : (c.perform g).picture ≠ c.picture := by
  have acts : g.acts = true := by
    cases g with
    | load _ _ | resize _ | beginFrame _ => cases told
    | _ => rfl
  obtain ⟨tops, effect⟩ := effect_perform c acts
  exact comparable.picture_ne_of_told effect (by rw [told]; rfl)

end Controller

theorem Controller.comparable_of_finite {c : Controller Float} (factor : c.zoom.k.isNaN = false)
    (shift : c.zoom.x.isNaN = false) (scroll : c.scrollTop.isFinite = true) : c.Comparable := by
  refine ⟨Double.beq_self factor, Double.beq_self shift, ?_⟩
  rw [Double.sub_self scroll]
  decide

namespace Controller

theorem picture_scrollTo {α : Type} [Scalar α] {c : Controller α} {top : α}
    (still : (c.scrollTo top).1.scrollTop = c.scrollTop) :
    (c.scrollTo top).1.picture = c.picture := by
  unfold scrollTo at still ⊢
  dsimp only at still ⊢
  split at still
  · next near => rw [if_pos near]
  · next apart =>
    rw [if_neg apart]
    change Scalar.clamp top 0 c.maxScroll = c.scrollTop at still
    simp only [picture, requestRedraw, still]

-- The content is taller than any double and the scroll offset infinite. Infinity has no distance
-- from itself, so that scrolling tells of a change where there is none.
theorem scrollBy_tells_at_infinity :
    let c : Controller Float :=
      (new ⟨{ Geometry.standard with rowHeight := 1e308 }, Theme.dark.palette, .standard⟩
        ⟨1, 100, 1.25⟩ 0).performAll
        [.resize ⟨800, 400⟩, .load 3 0, .scrollTo 1e308, .scrollBy 1e308]
    c.tells? (.scrollBy 24) = some true ∧ (c.perform (.scrollBy 24)).picture = c.picture := by
  intro c
  exact ⟨by decide +kernel, picture_scrollTo (by decide +kernel)⟩

end Controller

end Waterfall
