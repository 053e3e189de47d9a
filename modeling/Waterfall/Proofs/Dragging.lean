import Mathlib.Tactic.Linarith
import Mathlib.Tactic.NormNum
import Mathlib.Tactic.Ring
import Waterfall.Proofs.Exact
import Waterfall.Proofs.Gestures

set_option autoImplicit false

namespace Waterfall

def SameWay (d e : ℝ) : Prop :=
  0 ≤ d ∧ 0 ≤ e ∨ d ≤ 0 ∧ e ≤ 0

/-- All positions are on the same side of those before them. -/
def OneWay (positions : List ℝ) : Prop :=
  positions.Pairwise (· ≤ ·) ∨ positions.Pairwise (· ≥ ·)

theorem OneWay.tail {x : ℝ} {rest : List ℝ} (oneWay : OneWay (x :: rest)) : OneWay rest :=
  oneWay.imp List.Pairwise.of_cons List.Pairwise.of_cons

theorem OneWay.sameWay {x y z : ℝ} {rest : List ℝ} (oneWay : OneWay (x :: y :: rest))
    (later : z ∈ rest) : SameWay (y - x) (z - y) := by
  obtain up | down := oneWay
  · have first := List.rel_of_pairwise_cons up List.mem_cons_self
    have second := List.rel_of_pairwise_cons up.of_cons later
    exact .inl ⟨sub_nonneg.2 first, sub_nonneg.2 second⟩
  · have first := List.rel_of_pairwise_cons down List.mem_cons_self
    have second := List.rel_of_pairwise_cons down.of_cons later
    exact .inr ⟨sub_nonpos.2 first, sub_nonpos.2 second⟩

namespace Scalar

section

variable {x d e low high : ℝ}

theorem clamp_eq_min (above : low ≤ x) (ordered : low ≤ high) : clamp x low high = Min.min x high := by
  rw [real_clamp ordered, max_eq_right (le_min above ordered)]

theorem clamp_eq_max (below : x ≤ high) (ordered : low ≤ high) : clamp x low high = Max.max low x := by
  rw [real_clamp ordered, min_eq_left below]

variable (above : low ≤ x) (below : x ≤ high) (same : SameWay d e)

include above below same

theorem clamp_clamp_add :
    clamp (clamp (x + d) low high + e) low high = clamp (x + (d + e)) low high := by
  have ordered : low ≤ high := above.trans below
  obtain ⟨forth, on⟩ | ⟨back, on⟩ := same
  · have first : clamp (x + d) low high = Min.min (x + d) high := clamp_eq_min (by linarith) ordered
    have least : low ≤ Min.min (x + d) high + e := by
      linarith [le_min (show low ≤ x + d by linarith) ordered]
    rw [first, clamp_eq_min least ordered, clamp_eq_min (by linarith) ordered, ← min_add_add_right,
      min_assoc, min_eq_right (le_add_of_nonneg_right on), add_assoc]
  · have first : clamp (x + d) low high = Max.max low (x + d) := clamp_eq_max (by linarith) ordered
    have most : Max.max low (x + d) + e ≤ high := by
      linarith [max_le ordered (show x + d ≤ high by linarith)]
    rw [first, clamp_eq_max most ordered, clamp_eq_max (by linarith) ordered, ← max_add_add_right,
      ← max_assoc, max_eq_left (add_le_of_nonpos_right on), add_assoc]

theorem clamp_add_eq_self (stays : clamp (x + (d + e)) low high = x) :
    clamp (x + d) low high = x := by
  have ordered : low ≤ high := above.trans below
  obtain ⟨forth, on⟩ | ⟨back, on⟩ := same
  · rw [clamp_eq_min (by linarith) ordered] at stays ⊢
    have further : Min.min (x + d) high ≤ Min.min (x + (d + e)) high :=
      min_le_min_right high (by linarith)
    exact le_antisymm (further.trans_eq stays) (le_min (by linarith) below)
  · rw [clamp_eq_max (by linarith) ordered] at stays ⊢
    have further : Max.max low (x + (d + e)) ≤ Max.max low (x + d) :=
      max_le_max_left low (by linarith)
    exact le_antisymm (max_le above (by linarith)) (stays.symm.trans_le further)

end

end Scalar

namespace Zoom

noncomputable def bounds (k : ℝ) (range : ℝ × ℝ) : ℝ × ℝ :=
  (min (range.2 * (1 - k)) (range.1 * (1 - k)), max (range.1 * (1 - k)) (range.2 * (1 - k)))

structure Settled (z : Zoom ℝ) (range : ℝ × ℝ) : Prop where
  low : (bounds z.k range).1 ≤ z.x
  high : z.x ≤ (bounds z.k range).2

section

variable {z : Zoom ℝ} {range : ℝ × ℝ} {d e : ℝ}

theorem bounds_ordered (k : ℝ) (range : ℝ × ℝ) : (bounds k range).1 ≤ (bounds k range).2 :=
  (min_le_right _ _).trans (le_max_left _ _)

theorem constrain_eq (z : Zoom ℝ) (range : ℝ × ℝ) :
    z.constrain range = ⟨z.k, Scalar.clamp z.x (bounds z.k range).1 (bounds z.k range).2⟩ := by
  simp only [constrain, bounds, Scalar.real_one, Scalar.real_min, Scalar.real_max]

theorem settled_constrain (z : Zoom ℝ) (range : ℝ × ℝ) : (z.constrain range).Settled range := by
  rw [constrain_eq]
  exact ⟨Scalar.le_clamp (bounds_ordered z.k range), Scalar.clamp_le (bounds_ordered z.k range)⟩

theorem settled_identity (range : ℝ × ℝ) : identity.Settled range := by
  constructor <;> simp [identity, bounds]

theorem pan_eq (z : Zoom ℝ) (d : ℝ) (range : ℝ × ℝ) :
    z.pan d range = ⟨z.k, Scalar.clamp (z.x + d) (bounds z.k range).1 (bounds z.k range).2⟩ :=
  constrain_eq ⟨z.k, z.x + d⟩ range

theorem Settled.pan_pan (settled : z.Settled range) (same : SameWay d e) :
    (z.pan d range).pan e range = z.pan (d + e) range := by
  simp only [pan_eq, Scalar.clamp_clamp_add settled.low settled.high same]

theorem Settled.pan_eq_self (settled : z.Settled range) (same : SameWay d e)
    (stays : z.pan (d + e) range = z) : z.pan d range = z := by
  rw [pan_eq] at stays ⊢
  exact congrArg (Zoom.mk z.k)
    (Scalar.clamp_add_eq_self settled.low settled.high same (congrArg Zoom.x stays))

end

end Zoom

namespace Controller

variable {c d : Controller ℝ}

theorem settled_of_shifts (settled : c.zoom.Settled c.range) (shifts : Shifts c d) :
    d.zoom.Settled d.range := by
  have steady (same : SameBase c d) : d.range = c.range := congrArg Scale.range same.base
  cases shifts with
  | stays same zoom => rwa [zoom, steady same]
  | resets same zoom =>
    rw [zoom]
    exact Zoom.settled_identity d.range
  | pans dx same zoom =>
    rw [zoom, steady same]
    exact Zoom.settled_constrain _ c.range
  | zooms x factor _ _ same zoom =>
    rw [zoom, steady same]
    exact Zoom.settled_constrain _ c.range
  | loads _ _ _ _ zoom | resizes _ _ _ _ zoom =>
    rw [zoom]
    exact Zoom.settled_constrain _ d.range

theorem settled_performAll (settled : c.zoom.Settled c.range) (gestures : List (Gesture ℝ)) :
    (c.performAll gestures).zoom.Settled (c.performAll gestures).range := by
  induction gestures generalizing c with
  | nil => exact settled
  | cons g rest ih => exact ih (settled_of_shifts settled (shifts_perform c g))

theorem setZoom_cases (c : Controller ℝ) (z : Zoom ℝ) :
    z = c.zoom ∧ (c.setZoom z).1 = c ∨
      z ≠ c.zoom ∧ (c.setZoom z).1 = { c with zoom := z }.requestRedraw := by
  unfold setZoom
  split
  next same =>
    rw [Bool.and_eq_true, beq_iff_eq, beq_iff_eq] at same
    exact .inl ⟨congrArg₂ Zoom.mk same.1 same.2, rfl⟩
  next moved =>
    rw [Bool.and_eq_true, beq_iff_eq, beq_iff_eq] at moved
    exact .inr ⟨fun same => moved ⟨congrArg Zoom.k same, congrArg Zoom.x same⟩, rfl⟩

theorem zoom_setZoom (c : Controller ℝ) (z : Zoom ℝ) : (c.setZoom z).1.zoom = z := by
  obtain ⟨same, kept⟩ | ⟨-, set⟩ := setZoom_cases c z
  · rw [kept, same]
  · rw [set]
    rfl

theorem range_setZoom (c : Controller ℝ) (z : Zoom ℝ) : (c.setZoom z).1.range = c.range := by
  obtain ⟨-, kept⟩ | ⟨-, set⟩ := setZoom_cases c z
  · rw [kept]
  · rw [set]
    rfl

open Classical in
noncomputable def dragged (c : Controller ℝ) (position : ℝ) (z : Zoom ℝ) : Controller ℝ :=
  { c with
    dragOrigin := some position
    zoom := z
    redraw := if z = c.zoom then c.redraw else c.redraw.request }

section

variable {c : Controller ℝ} {x y : ℝ} {z w : Zoom ℝ}

theorem dragged_of_eq (same : z = c.zoom) : c.dragged x z = c.dragStart x := by
  rw [dragged, if_pos same, same]
  rfl

theorem dragged_of_ne (moved : z ≠ c.zoom) :
    c.dragged x z = { c.dragStart x with zoom := z }.requestRedraw := by
  rw [dragged, if_neg moved]
  rfl

theorem dragTo_dragStart (c : Controller ℝ) (x y : ℝ) :
    (c.dragStart x).perform (.dragTo y) = c.dragged y (c.zoom.pan (y - x) c.range) := by
  change ((c.dragStart y).setZoom (c.zoom.pan (y - x) c.range)).1 = _
  obtain ⟨same, kept⟩ | ⟨moved, set⟩ := setZoom_cases (c.dragStart y) (c.zoom.pan (y - x) c.range)
  · rw [kept]
    exact (dragged_of_eq same).symm
  · rw [set]
    exact (dragged_of_ne moved).symm

theorem dragStart_dragged (c : Controller ℝ) (x : ℝ) (z : Zoom ℝ) :
    (c.dragged x z).dragStart x = c.dragged x z :=
  rfl

theorem dragged_dragged (back : w = c.zoom → z = c.zoom) :
    (c.dragged x z).dragged y w = c.dragged y w := by
  by_cases still : z = c.zoom
  · rw [dragged_of_eq still]
    rfl
  · have moved : w ≠ c.zoom := fun same => still (back same)
    rw [dragged_of_ne moved]
    by_cases further : w = z
    · rw [dragged_of_eq (c := c.dragged x z) further, dragged_of_ne still, further]
      rfl
    · rw [dragged_of_ne (c := c.dragged x z) further, dragged_of_ne still]
      rfl

end

theorem zoomIn_eq (c : Controller ℝ) (grows : 0 < c.limits.step) :
    c.zoomIn = c.setZoom (c.zoom.zoomAt c.center c.limits.step c.limits c.range) := by
  rw [zoomIn, zoomAt, if_neg]
  rintro (infinite | below)
  · cases infinite
  · exact absurd (Scalar.real_zero ▸ below) grows.not_ge

theorem dragTo_dragTo (settled : c.zoom.Settled c.range) {x y z : ℝ} (same : SameWay (y - x) (z - y)) :
    ((c.dragStart x).perform (.dragTo y)).perform (.dragTo z) = (c.dragStart x).perform (.dragTo z) := by
  have whole : y - x + (z - y) = z - x := by ring
  have pan_pan := settled.pan_pan same
  have pan_eq_self := settled.pan_eq_self same
  rw [whole] at pan_pan pan_eq_self
  calc ((c.dragStart x).perform (.dragTo y)).perform (.dragTo z)
      = (c.dragged y (c.zoom.pan (y - x) c.range)).perform (.dragTo z) := by rw [dragTo_dragStart]
    _ = (c.dragged y (c.zoom.pan (y - x) c.range)).dragged z
          ((c.zoom.pan (y - x) c.range).pan (z - y) c.range) := by
        rw [← dragStart_dragged, dragTo_dragStart]
        rfl
    _ = c.dragged z (c.zoom.pan (z - x) c.range) := by rw [pan_pan, dragged_dragged pan_eq_self]
    _ = (c.dragStart x).perform (.dragTo z) := (dragTo_dragStart c x z).symm

def drag (start : ℝ) (positions : List ℝ) : List (Gesture ℝ) :=
  .dragStart start :: positions.map .dragTo

theorem zoom_drag (c : Controller ℝ) (start next finish : ℝ) :
    (c.performAll (drag start [next, finish])).zoom =
      (c.zoom.pan (next - start) c.range).pan (finish - next) c.range := by
  change (((c.dragStart start).perform (.dragTo next)).perform (.dragTo finish)).zoom = _
  rw [dragTo_dragStart, ← dragStart_dragged, dragTo_dragStart]
  rfl

theorem performAll_drag (settled : c.zoom.Settled c.range) {start finish : ℝ} {between : List ℝ}
    (oneWay : OneWay (start :: (between ++ [finish]))) :
    c.performAll (drag start (between ++ [finish])) = c.performAll (drag start [finish]) := by
  induction between generalizing c start with
  | nil => rfl
  | cons next rest ih =>
    let d := (c.dragStart start).perform (.dragTo next)
    have settled' : d.zoom.Settled d.range :=
      settled_performAll settled [.dragStart start, .dragTo next]
    have reached : d.dragStart next = d := by
      rw [show d = _ from dragTo_dragStart c start next, dragStart_dragged]
    calc c.performAll (drag start (next :: rest ++ [finish]))
        = d.performAll ((rest ++ [finish]).map .dragTo) := rfl
      _ = d.performAll (drag next (rest ++ [finish])) := by
          rw [drag, performAll, performAll, List.foldl_cons]
          exact congrArg (List.foldl perform · _) reached.symm
      _ = d.performAll (drag next [finish]) := ih settled' oneWay.tail
      _ = d.perform (.dragTo finish) := congrArg (perform · (.dragTo finish)) reached
      _ = c.performAll (drag start [finish]) :=
          dragTo_dragTo settled (oneWay.sameWay (List.mem_append_right rest List.mem_cons_self))

/-- A drag that goes in one direction from its start on leads to the same controller through all of its positions
as straight to the last, also where the picture meets an end of its range. -/
theorem performAll_drag_one_way (chart : Chart ℝ) (limits : ZoomLimits ℝ) (interval : ℕ)
    (gestures : List (Gesture ℝ)) (start finish : ℝ) (between : List ℝ)
    (oneWay : OneWay (start :: (between ++ [finish]))) :
    let c := (new chart limits interval).performAll gestures
    let dragged := c.performAll (drag start (between ++ [finish]))
    dragged = c.performAll (drag start [finish]) ∧ dragged.zoom = c.zoom.pan (finish - start) c.range := by
  intro c dragged
  have straight : dragged = c.performAll (drag start [finish]) :=
    performAll_drag (settled_performAll (Zoom.settled_identity _) gestures) oneWay
  exact ⟨straight, congrArg Controller.zoom (straight.trans (dragTo_dragStart c start finish))⟩

-- The picture is a quarter wider than its range, so that it meets the end after the first step.
theorem performAll_drag_one_way_beyond :
    let c := (new ⟨.standard, Theme.dark.palette, .standard⟩ ⟨1, 100, 1.25⟩ 0).performAll
      [.load 3 5000, .resize ⟨800, 600⟩, .zoomIn]
    OneWay [300, 500, 500, 2000] ∧
      c.performAll (drag 300 [500, 500, 2000]) = c.performAll (drag 300 [2000]) := by
  intro c
  have oneWay : OneWay [300, 500, 500, 2000] := .inl (by norm_num)
  exact ⟨oneWay, (performAll_drag_one_way _ _ 0 _ 300 2000 [500, 500] oneWay).1⟩

-- The way from 500 to 0 meets the end of the range, and the way back does not.
theorem performAll_drag_back :
    let c := (new ⟨.standard, Theme.dark.palette, .standard⟩ ⟨1, 100, 1.25⟩ 0).performAll
      [.load 3 5000, .resize ⟨800, 600⟩, .zoomIn]
    OneWay [0, 500] ∧ (c.performAll (drag 500 [500])).zoom = ⟨5 / 4, -123⟩ ∧
      (c.performAll (drag 500 [0, 500])).zoom = ⟨5 / 4, -50⟩ := by
  intro c
  let d := (new ⟨.standard, Theme.dark.palette, .standard⟩ ⟨1, 100, 1.25⟩ 0).performAll
    [.load 3 5000, .resize (⟨800, 600⟩ : Viewport ℝ)]
  have range : d.range = (200, 784) := by
    simp [d, performAll, perform, load, resize, new, Controller.range, rebuildBase, baseScale, Scale.base,
      requestRedraw, geometry, Geometry.timelineRange, Geometry.standard]
    norm_num
  have whole : d.zoom = ⟨1, 0⟩ := by
    simp [d, performAll, perform, load, resize, new, rebuildBase, requestRedraw, Zoom.constrain,
      Zoom.identity, Scalar.real_clamp]
  have limits : d.limits = ⟨1, 100, 1.25⟩ := by
    simp [d, performAll, perform, load, resize, new, rebuildBase, requestRedraw]
  have bounds : Zoom.bounds (5 / 4) (200, 784) = (-196, -50) := by
    norm_num [Zoom.bounds]
  have zoomed : c = (d.setZoom (d.zoom.zoomAt d.center d.limits.step d.limits d.range)).1 :=
    congrArg Prod.fst (d.zoomIn_eq (by rw [limits]; norm_num))
  have shown : c.zoom = ⟨5 / 4, -123⟩ := by
    rw [zoomed, zoom_setZoom, center, whole, range, limits]
    norm_num [Zoom.zoomAt, Zoom.constrain_eq, bounds, Scalar.real_clamp]
  have framed : c.range = (200, 784) := by
    rw [zoomed, range_setZoom, range]
  refine ⟨.inl (by norm_num), ?_, ?_⟩
  · change ((c.dragStart 500).perform (.dragTo 500)).zoom = _
    rw [dragTo_dragStart, dragged, shown, framed]
    norm_num [Zoom.pan_eq, bounds, Scalar.real_clamp]
  · rw [zoom_drag, shown, framed]
    norm_num [Zoom.pan_eq, bounds, Scalar.real_clamp]

end Controller

end Waterfall
