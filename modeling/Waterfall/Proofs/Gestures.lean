import Waterfall.Controller

set_option autoImplicit false

namespace Waterfall

inductive Gesture (α : Type) where
  | load (rowCount : Nat) (extent : UInt64)
  | resize (viewport : Viewport α)
  | zoomAt (x factor : α)
  | zoomIn
  | zoomOut
  | panBy (dx : α)
  | panLeft
  | panRight
  | resetZoom
  | dragStart (x : α)
  | dragTo (x : α)
  | dragEnd
  | wheel (w : Wheel α)
  | scrollTo (top : α)
  | scrollBy (dy : α)
  | page (pages : α)
  | scrollIntoView (row : Nat)
  | click (x y : α) (rows : List Row)
  | doubleClick (x y : α)
  | hover (x y : α)
  | leave
  | requestRedraw
  | beginFrame (now : Nat)

def Gesture.acts {α : Type} : Gesture α → Bool
  | .load _ _ | .resize _ | .beginFrame _ => false
  | _ => true

namespace Controller

variable {α : Type} [Scalar α]

def perform (c : Controller α) : Gesture α → Controller α
  | .load rowCount extent => c.load rowCount extent
  | .resize viewport => c.resize viewport
  | .zoomAt x factor => (c.zoomAt x factor).1
  | .zoomIn => c.zoomIn.1
  | .zoomOut => c.zoomOut.1
  | .panBy dx => (c.panBy dx).1
  | .panLeft => c.panLeft.1
  | .panRight => c.panRight.1
  | .resetZoom => c.resetZoom.1
  | .dragStart x => c.dragStart x
  | .dragTo x => (c.dragTo x).1
  | .dragEnd => c.dragEnd
  | .wheel w => (c.wheel w).1
  | .scrollTo top => (c.scrollTo top).1
  | .scrollBy dy => (c.scrollBy dy).1
  | .page pages => (c.page pages).1
  | .scrollIntoView row => (c.scrollIntoView row).1
  | .click x y rows => (c.click x y rows).1
  | .doubleClick x y => (c.doubleClick x y).1
  | .hover x y => (c.hover x y).1
  | .leave => c.leave.1
  | .requestRedraw => c.requestRedraw
  | .beginFrame now => (c.beginFrame now).1

def performAll (c : Controller α) (gestures : List (Gesture α)) : Controller α :=
  gestures.foldl perform c

structure SameBase (c d : Controller α) : Prop where
  chart : d.chart = c.chart
  limits : d.limits = c.limits
  viewport : d.viewport = c.viewport
  extent : d.extent = c.extent
  base : d.base = c.base

inductive Shifts (c d : Controller α) : Prop
  | stays (same : SameBase c d) (zoom : d.zoom = c.zoom)
  | resets (same : SameBase c d) (zoom : d.zoom = .identity)
  | pans (dx : α) (same : SameBase c d) (zoom : d.zoom = c.zoom.pan dx c.range)
  | zooms (x factor : α) (finite : Scalar.finite factor = true) (positive : ¬ factor ≤ 0)
      (same : SameBase c d) (zoom : d.zoom = c.zoom.zoomAt x factor c.limits c.range)
  | loads (chart : d.chart = c.chart) (limits : d.limits = c.limits)
      (viewport : d.viewport = c.viewport)
      (base : d.base = baseScale d.geometry d.extent d.viewport.width)
      (zoom : d.zoom = Zoom.identity.constrain d.range)
  | resizes (chart : d.chart = c.chart) (limits : d.limits = c.limits)
      (extent : d.extent = c.extent)
      (base : d.base = baseScale d.geometry d.extent d.viewport.width)
      (zoom : d.zoom = c.zoom.constrain d.range)

section

variable {c d : Controller α}

omit [Scalar α] in
theorem SameBase.refl (c : Controller α) : SameBase c c := ⟨rfl, rfl, rfl, rfl, rfl⟩

theorem Shifts.refl (c : Controller α) : Shifts c c := .stays (.refl c) rfl

theorem Shifts.limits (shifts : Shifts c d) : d.limits = c.limits := by
  cases shifts with
  | stays same | resets same | pans _ same | zooms _ _ _ _ same => exact same.limits
  | loads _ limits | resizes _ limits => exact limits

theorem Shifts.chart (shifts : Shifts c d) : d.chart = c.chart := by
  cases shifts with
  | stays same | resets same | pans _ same | zooms _ _ _ _ same => exact same.chart
  | loads chart | resizes chart => exact chart

end

inductive Zooms (c : Controller α) : Zoom α → Prop where
  | resets : Zooms c .identity
  | pans (dx : α) : Zooms c (c.zoom.pan dx c.range)
  | zooms (x factor : α) (finite : Scalar.finite factor = true) (positive : ¬ factor ≤ 0) :
      Zooms c (c.zoom.zoomAt x factor c.limits c.range)

/-- All that a gesture on a trace can do, and whether it tells of a change. It scrolls to one of
`tops` if it scrolls at all. -/
inductive Effect (c : Controller α) (tops : α → Prop) : Controller α × Bool → Prop where
  | stays (origin : Option α) : Effect c tops ({ c with dragOrigin := origin }, false)
  | asks : Effect c tops (c.requestRedraw, false)
  | zooms (origin : Option α) {zoom : Zoom α} (way : Zooms c zoom)
      (differs : ¬ (zoom.k == c.zoom.k && zoom.x == c.zoom.x) = true) :
      Effect c tops ({ c with dragOrigin := origin, zoom := zoom }.requestRedraw, true)
  | scrolls {top : α} (way : tops top)
      (apart : ¬ Scalar.abs (Scalar.clamp top 0 c.maxScroll - c.scrollTop) < Scalar.epsilon) :
      Effect c tops ({ c with scrollTop := Scalar.clamp top 0 c.maxScroll }.requestRedraw, true)
  | hovers {row : Option Nat} (other : row ≠ c.hovered) :
      Effect c tops ({ c with hovered := row }.requestRedraw, true)

theorem Effect.mono {c : Controller α} {tops more : α → Prop} {r : Controller α × Bool}
    (effect : Effect c tops r) (h : ∀ top, tops top → more top) : Effect c more r := by
  cases effect with
  | stays origin => exact .stays origin
  | asks => exact .asks
  | zooms origin way differs => exact .zooms origin way differs
  | scrolls way apart => exact .scrolls (h _ way) apart
  | hovers other => exact .hovers other

section

variable (c : Controller α)

theorem effect_setZoom {zoom : Zoom α} (way : Zooms c zoom) :
    Effect c (fun _ => False) (c.setZoom zoom) := by
  unfold setZoom
  split
  next => exact .stays c.dragOrigin
  next differs => exact .zooms c.dragOrigin way differs

theorem effect_zoomAt (x factor : α) : Effect c (fun _ => False) (c.zoomAt x factor) := by
  unfold zoomAt
  split
  next => exact .stays c.dragOrigin
  next sound =>
    rw [not_or, Bool.not_eq_false] at sound
    exact effect_setZoom c (.zooms x factor sound.1 sound.2)

theorem effect_panBy (dx : α) : Effect c (fun _ => False) (c.panBy dx) :=
  effect_setZoom c (.pans dx)

theorem effect_resetZoom : Effect c (fun _ => False) c.resetZoom :=
  effect_setZoom c .resets

-- The origin of the drag moves along, whether or not the zoom changes.
theorem effect_dragTo (x : α) : Effect c (fun _ => False) (c.dragTo x) := by
  unfold dragTo
  split
  next => exact .stays (some x)
  next origin _ =>
    unfold panBy setZoom
    split
    next => exact .stays (some x)
    next differs => exact .zooms (some x) (.pans (x - origin)) differs

theorem effect_scrollTo (top : α) : Effect c (· = top) (c.scrollTo top) := by
  unfold scrollTo
  dsimp only
  split
  next => exact .stays c.dragOrigin
  next apart => exact .scrolls rfl apart

theorem effect_page (pages : α) :
    Effect c (· = c.scrollTop + pages * c.body) (c.page pages) :=
  effect_scrollTo c _

theorem effect_scrollIntoView (row : Nat) :
    Effect c (fun top => top = Scalar.ofNat row * c.geometry.rowHeight ∨
      top = Scalar.ofNat row * c.geometry.rowHeight + c.geometry.rowHeight - c.body)
      (c.scrollIntoView row) := by
  unfold scrollIntoView
  dsimp only
  split
  next => exact (effect_scrollTo c _).mono fun _ => .inl
  next =>
    split
    next => exact (effect_scrollTo c _).mono fun _ => .inr
    next => exact .stays c.dragOrigin

theorem effect_wheel (w : Wheel α) :
    Effect c (· = c.scrollTop + w.deltaY * 3 * c.geometry.rowHeight)
      ((c.wheel w).1, (c.wheel w).2 ≠ .ignored) := by
  -- An effect is named if and only if the gesture behind it tells of a change.
  have named {tops : α → Prop} {r : Controller α × Bool} {name : WheelEffect}
      (effect : Effect c tops r) (proper : name ≠ .ignored) :
      Effect c tops (r.1, (if r.2 then name else .ignored) ≠ WheelEffect.ignored) := by
    obtain ⟨d, told⟩ := r
    cases told with
    | true => simpa [proper] using effect
    | false => simpa using effect
  unfold wheel
  dsimp only
  split
  next => exact named ((effect_zoomAt c _ _).mono nofun) nofun
  next =>
    split
    next => exact named ((effect_panBy c _).mono nofun) nofun
    next => exact named (effect_scrollTo c _) nofun

theorem effect_click (x y : α) (rows : List Row) :
    Effect c (fun _ => False) ((c.click x y rows).1, false) := by
  unfold click
  split
  next => exact .asks
  next => exact .stays c.dragOrigin

theorem effect_hover (x y : α) : Effect c (fun _ => False) (c.hover x y) := by
  unfold hover
  dsimp only
  split
  next => exact .stays c.dragOrigin
  next other => exact .hovers other

theorem effect_leave : Effect c (fun _ => False) c.leave := by
  unfold leave
  split
  next hovering =>
    refine .hovers fun none_hovered => ?_
    rw [← none_hovered] at hovering
    cases hovering
  next => exact .stays c.dragOrigin

def tells? (c : Controller α) : Gesture α → Option Bool
  | .zoomAt x factor => some (c.zoomAt x factor).2
  | .zoomIn => some c.zoomIn.2
  | .zoomOut => some c.zoomOut.2
  | .panBy dx => some (c.panBy dx).2
  | .panLeft => some c.panLeft.2
  | .panRight => some c.panRight.2
  | .resetZoom => some c.resetZoom.2
  | .dragTo x => some (c.dragTo x).2
  | .wheel w => some ((c.wheel w).2 ≠ .ignored)
  | .scrollTo top => some (c.scrollTo top).2
  | .scrollBy dy => some (c.scrollBy dy).2
  | .page pages => some (c.page pages).2
  | .scrollIntoView row => some (c.scrollIntoView row).2
  | .hover x y => some (c.hover x y).2
  | .leave => some c.leave.2
  | _ => none

theorem effect_perform {g : Gesture α} (acts : g.acts = true) :
    ∃ tops, Effect c tops (c.perform g, (c.tells? g).getD false) := by
  cases g with
  | zoomAt x factor => exact ⟨_, effect_zoomAt c x factor⟩
  | zoomIn | zoomOut => exact ⟨_, effect_zoomAt c _ _⟩
  | panBy _ | panLeft | panRight => exact ⟨_, effect_panBy c _⟩
  | resetZoom => exact ⟨_, effect_resetZoom c⟩
  | dragStart x => exact ⟨fun _ => False, .stays (some x)⟩
  | dragTo x => exact ⟨_, effect_dragTo c x⟩
  | dragEnd => exact ⟨fun _ => False, .stays none⟩
  | wheel w => exact ⟨_, effect_wheel c w⟩
  | scrollTo _ | scrollBy _ | page _ => exact ⟨_, effect_scrollTo c _⟩
  | scrollIntoView row => exact ⟨_, effect_scrollIntoView c row⟩
  | click x y rows => exact ⟨_, effect_click c x y rows⟩
  | doubleClick _ _ => exact ⟨fun _ => False, .stays c.dragOrigin⟩
  | hover x y => exact ⟨_, effect_hover c x y⟩
  | leave => exact ⟨_, effect_leave c⟩
  | requestRedraw => exact ⟨fun _ => False, .asks⟩
  | load _ _ | resize _ | beginFrame _ => cases acts

theorem shifts_resize (viewport : Viewport α) : Shifts c (c.resize viewport) := by
  unfold resize
  split
  next => exact .refl c
  next => exact .resizes rfl rfl rfl rfl rfl

end

theorem Effect.shifts {c : Controller α} {tops : α → Prop} {r : Controller α × Bool}
    (effect : Effect c tops r) : Shifts c r.1 := by
  cases effect with
  | zooms origin way _ =>
    cases way with
    | resets => exact .resets ⟨rfl, rfl, rfl, rfl, rfl⟩ rfl
    | pans dx => exact .pans dx ⟨rfl, rfl, rfl, rfl, rfl⟩ rfl
    | zooms x factor finite positive =>
      exact .zooms x factor finite positive ⟨rfl, rfl, rfl, rfl, rfl⟩ rfl
  | _ => exact .stays ⟨rfl, rfl, rfl, rfl, rfl⟩ rfl

theorem shifts_perform (c : Controller α) (g : Gesture α) : Shifts c (c.perform g) := by
  by_cases acts : g.acts = true
  · obtain ⟨tops, effect⟩ := effect_perform c acts
    exact effect.shifts
  · cases g with
    | load rowCount extent => exact .loads rfl rfl rfl rfl rfl
    | resize viewport => exact shifts_resize c viewport
    | beginFrame now => exact .stays ⟨rfl, rfl, rfl, rfl, rfl⟩ rfl
    | _ => exact absurd rfl acts

theorem chart_performAll (c : Controller α) (gestures : List (Gesture α)) :
    (c.performAll gestures).chart = c.chart := by
  induction gestures generalizing c with
  | nil => rfl
  | cons g rest ih => exact (ih (c.perform g)).trans (shifts_perform c g).chart

theorem limits_performAll (c : Controller α) (gestures : List (Gesture α)) :
    (c.performAll gestures).limits = c.limits := by
  induction gestures generalizing c with
  | nil => rfl
  | cons g rest ih => exact (ih (c.perform g)).trans (shifts_perform c g).limits

end Controller

end Waterfall
