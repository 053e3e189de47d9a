import Mathlib.Tactic.Linarith
import Mathlib.Tactic.NormNum
import Waterfall.Proofs.ScrollRange
import Waterfall.Proofs.VisibleRows

set_option autoImplicit false

namespace Waterfall

namespace Controller

/-- The whole row lies in the body of a chart that is scrolled to `top`, up to `slack`. A body lower than a
row counts as high as one. -/
def Reveals (c : Controller ℝ) (row : ℕ) (slack top : ℝ) : Prop :=
  top - slack ≤ row * c.geometry.rowHeight ∧
    (row + 1) * c.geometry.rowHeight ≤
      top + max (c.viewport.height - c.geometry.headerHeight) c.geometry.rowHeight + slack

def Nearest (c : Controller ℝ) (row : ℕ) (top : ℝ) : Prop :=
  c.Reveals row 0 top ∧ ∀ other, c.Reveals row 0 other → |top - c.scrollTop| ≤ |other - c.scrollTop|

section

variable {c : Controller ℝ}

theorem body_eq (c : Controller ℝ) :
    c.body = max (c.viewport.height - c.geometry.headerHeight) c.geometry.rowHeight :=
  Scalar.real_max _ _

variable {row : ℕ}

theorem reveals_zero_iff {top : ℝ} : c.Reveals row 0 top ↔
    top ≤ row * c.geometry.rowHeight ∧ (row + 1) * c.geometry.rowHeight - c.body ≤ top := by
  rw [Reveals, body_eq, sub_zero, add_zero, sub_le_iff_le_add]

-- Even the last row ends no further down than the body does when it is scrolled all the way.
theorem end_sub_body_le_maxScroll (tall : 0 < c.geometry.rowHeight) (loaded : row < c.rowCount) :
    (row + 1) * c.geometry.rowHeight - c.body ≤ c.maxScroll := by
  have listed : (row : ℝ) + 1 ≤ c.rowCount := by exact_mod_cast loaded
  have last := mul_le_mul_of_nonneg_right listed tall.le
  have room : c.viewport.height - c.geometry.headerHeight ≤ c.body := c.body_eq ▸ le_max_left _ _
  have content : c.geometry.headerHeight + c.rowCount * c.geometry.rowHeight - c.viewport.height ≤
      c.maxScroll := by
    rw [maxScroll, Scalar.real_positive, Geometry.contentHeight, Scalar.real_max]
    exact le_max_of_le_left (sub_le_sub_right (le_max_left _ _) _)
  linarith

theorem nearest_of_reveals (revealed : c.Reveals row 0 c.scrollTop) : c.Nearest row c.scrollTop := by
  refine ⟨revealed, fun other _ => ?_⟩
  rw [sub_self, abs_zero]
  exact abs_nonneg _

theorem exists_nearest (tall : 0 < c.geometry.rowHeight) (unmoved : 0 ≤ c.scrollTop)
    (within : c.scrollTop ≤ c.maxScroll) (loaded : row < c.rowCount) :
    ∃ top, c.Nearest row top ∧ c.scrollIntoView row = c.moved top := by
  have room : c.geometry.rowHeight ≤ c.body := c.body_eq ▸ le_max_right _ _
  have below := end_sub_body_le_maxScroll tall loaded
  have start : (0 : ℝ) ≤ row * c.geometry.rowHeight := mul_nonneg row.cast_nonneg tall.le
  unfold scrollIntoView
  rw [Scalar.real_ofNat]
  dsimp only
  split
  next hidden_above =>
    refine ⟨row * c.geometry.rowHeight, ⟨reveals_zero_iff.2 ⟨le_rfl, by linarith⟩, fun other shown => ?_⟩,
      scrollTo_eq start (hidden_above.le.trans within)⟩
    rw [reveals_zero_iff] at shown
    rw [abs_of_neg (by linarith), abs_of_neg (by linarith)]
    linarith
  next =>
    split
    next hidden_below =>
      have same : row * c.geometry.rowHeight + c.geometry.rowHeight - c.body =
          (row + 1) * c.geometry.rowHeight - c.body := by ring
      rw [same]
      refine ⟨(row + 1) * c.geometry.rowHeight - c.body,
        ⟨reveals_zero_iff.2 ⟨by linarith, le_rfl⟩, fun other shown => ?_⟩,
        scrollTo_eq (by linarith) below⟩
      rw [reveals_zero_iff] at shown
      rw [abs_of_pos (by linarith), abs_of_pos (by linarith)]
      linarith
    next =>
      refine ⟨c.scrollTop, nearest_of_reveals (reveals_zero_iff.2 ⟨by linarith, by linarith⟩), ?_⟩
      rw [moved, sub_self, abs_zero, if_pos (by positivity)]

end

/-- Scrolling a row into view moves the chart to the nearest offset at which the whole row lies in the body. -/
theorem scrollIntoView_nearest (c : Controller ℝ) (valid : c.geometry.fault? = none)
    (unmoved : 0 ≤ c.scrollTop) (within : c.scrollTop ≤ c.maxScroll) {row : ℕ}
    (loaded : row < c.rowCount) :
    c.Reveals row (2⁻¹ ^ 52) (c.scrollIntoView row).1.scrollTop ∧
      (c.Reveals row 0 c.scrollTop → c.scrollIntoView row = (c, false)) ∧
      ∃ top, c.Nearest row top ∧ c.scrollIntoView row = c.moved top := by
  have tall := Geometry.rowHeight_pos valid
  obtain ⟨top, nearest, next⟩ := exists_nearest tall unmoved within loaded
  refine ⟨?_, fun revealed => ?_, top, nearest, next⟩
  · have near := abs_lt.1 (c.scrollTop_moved top)
    obtain ⟨above, below⟩ := nearest.1
    rw [next]
    exact ⟨by linarith, by linarith⟩
  · have still := nearest.2 c.scrollTop revealed
    rw [sub_self, abs_zero] at still
    rw [next, moved, if_pos (still.trans_lt (by positivity))]

-- The body is lower than a row, and the row is the last.
theorem scrollIntoView_nearest_last :
    let c : Controller ℝ :=
      { new ⟨.standard, default, []⟩ ⟨1, 100, 1.25⟩ 0 with
        viewport := ⟨800, 40⟩, rowCount := 10, scrollTop := 30 }
    c.geometry.fault? = none ∧ 0 ≤ c.scrollTop ∧ c.scrollTop ≤ c.maxScroll ∧ 9 < c.rowCount ∧
      c.Reveals 9 (2⁻¹ ^ 52) (c.scrollIntoView 9).1.scrollTop ∧ c.Nearest 9 216 ∧
      c.scrollIntoView 9 = ({ c with scrollTop := 216 }.requestRedraw, true) := by
  intro c
  have rowHeight : c.geometry.rowHeight = 24 := rfl
  have headerHeight : c.geometry.headerHeight = 30 := rfl
  have height : c.viewport.height = 40 := rfl
  have scrolled : c.scrollTop = 30 := rfl
  have counted : c.rowCount = 10 := rfl
  have unmoved : 0 ≤ c.scrollTop := by
    rw [scrolled]
    norm_num
  have within : c.scrollTop ≤ c.maxScroll := by
    rw [scrolled, maxScroll, Scalar.real_positive, Geometry.contentHeight, Scalar.real_max,
      Geometry.rowTop, Scalar.real_ofNat, rowHeight, headerHeight, height, counted]
    norm_num
  obtain ⟨revealed, -, top, nearest, next⟩ :=
    scrollIntoView_nearest c Geometry.fault?_standard unmoved within (by decide : 9 < c.rowCount)
  have only : top = 216 := by
    have shown := nearest.1
    rw [Reveals, rowHeight, headerHeight, height] at shown
    norm_num at shown
    linarith
  subst only
  refine ⟨Geometry.fault?_standard, unmoved, within, by decide, revealed, nearest, next.trans ?_⟩
  rw [moved, scrolled, if_neg (by norm_num)]

end Controller

end Waterfall
