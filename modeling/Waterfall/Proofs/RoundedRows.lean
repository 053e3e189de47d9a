import Waterfall.Geometry
import Waterfall.Proofs.Double.Parts

set_option autoImplicit false

namespace Waterfall

open Double (value slack slack_le)

namespace Geometry

/-- The content is no more than `2^50` times as high as the body. -/
structure InProportion (g : Geometry Float) (rows : ℕ) (height : Float) : Prop where
  finite_row : g.rowHeight.isFinite = true
  finite_header : g.headerHeight.isFinite = true
  finite_height : height.isFinite = true
  row : 0 < value g.rowHeight
  header : 0 ≤ value g.headerHeight
  body : 1 / 2 ^ 53 ≤ value height - value g.headerHeight
  screen : value height ≤ 2 ^ 32
  listed : 1 ≤ rows
  word : rows < 2 ^ 64
  reach : value g.headerHeight + rows * value g.rowHeight ≤ 2 ^ 50 * (value height - value g.headerHeight)

section

variable {g : Geometry Float} {rows : ℕ} {height : Float} (h : g.InProportion rows height)

include h

theorem InProportion.row_le : value g.rowHeight ≤ rows * value g.rowHeight := by
  have one : (1 : ℚ) ≤ rows := by exact_mod_cast h.listed
  exact le_mul_of_one_le_left h.row.le one

theorem InProportion.slack_le_body : slack ≤ (value height - value g.headerHeight) / 2 ^ 100 := by
  linarith [slack_le, h.body]

theorem InProportion.slack_mul_le :
    slack * value g.rowHeight ≤ (value height - value g.headerHeight) / 2 ^ 100 := by
  have least := mul_le_mul_of_nonneg_right slack_le h.row.le
  linarith [h.row_le, h.reach, h.header, h.body]

theorem InProportion.rows_height :
    (Double.nearest rows * g.rowHeight).isFinite = true ∧ 0 ≤ value (Double.nearest rows * g.rowHeight) ∧
      value (Double.nearest rows * g.rowHeight) ≤
        rows * value g.rowHeight + (value height - value g.headerHeight) / 3 := by
  have word : (rows : ℚ) ≤ 2 ^ 64 := by exact_mod_cast h.word.le
  obtain ⟨finite, nonneg, error⟩ :=
    (Double.rounded_nearest h.word).near rows.cast_nonneg (word.trans (by norm_num))
  have counted : value (Double.nearest rows) * value g.rowHeight ≤
      rows * value g.rowHeight + rows * value g.rowHeight / 2 ^ 53 + slack * value g.rowHeight := by
    have := mul_le_mul_of_nonneg_right (by linarith [(abs_le.1 error).2] :
      value (Double.nearest rows) ≤ rows + rows / 2 ^ 53 + slack) h.row.le
    linarith
  obtain ⟨finite', nonneg', error'⟩ := (Double.rounded_mul finite h.finite_row).near
    (mul_nonneg nonneg h.row.le)
    (by linarith [h.slack_mul_le, h.reach, h.header, h.body, h.screen])
  exact ⟨finite', nonneg', by
    linarith [(abs_le.1 error').2, h.slack_mul_le, h.slack_le_body, h.reach, h.header, h.body]⟩

theorem InProportion.rowTop :
    (g.rowTop rows).isFinite = true ∧
      value (g.rowTop rows) ≤ value g.headerHeight + rows * value g.rowHeight +
        (value height - value g.headerHeight) / 2 := by
  obtain ⟨finite, nonneg, bound⟩ := h.rows_height
  obtain ⟨finite', -, error⟩ := (Double.rounded_add h.finite_header finite).near
    (add_nonneg h.header nonneg) (by linarith [h.reach, h.header, h.body, h.screen])
  refine ⟨finite', ?_⟩
  change value (g.headerHeight + Double.nearest rows * g.rowHeight) ≤ _
  linarith [(abs_le.1 error).2, h.slack_le_body, h.reach, h.header, h.body]

-- What is hidden of the content leaves a part of the body to its last row.
theorem InProportion.hidden :
    let hidden := Scalar.positive (g.contentHeight rows height - height)
    hidden.isFinite = true ∧
      (value hidden = 0 ∨
        value hidden ≤ rows * value g.rowHeight - (value height - value g.headerHeight) / 4) := by
  intro hidden
  obtain ⟨finite, bound⟩ := h.rowTop
  obtain ⟨finite_content, content⟩ := Double.max_exact finite h.finite_height
  have rounded : Double.Rounded (max (value (g.rowTop rows)) (value height) - value height)
      (Double.place? (g.contentHeight rows height - height)) := by
    rw [← content]
    exact Double.rounded_sub finite_content h.finite_height
  obtain fits | overflows := le_total (value (g.rowTop rows)) (value height)
  · rw [max_eq_right fits, sub_self] at rounded
    obtain ⟨finite', none⟩ := rounded.exact (x := 0) (by decide) rfl
    obtain ⟨finite'', same⟩ := Double.positive_exact finite'
    refine ⟨finite'', .inl ?_⟩
    rw [same, none, max_self]
  · rw [max_eq_left overflows] at rounded
    obtain ⟨finite', nonneg, error⟩ := rounded.near (sub_nonneg.2 overflows)
      (by linarith [h.reach, h.header, h.body, h.screen])
    obtain ⟨finite'', same⟩ := Double.positive_exact finite'
    refine ⟨finite'', .inr ?_⟩
    rw [same, max_eq_left nonneg]
    linarith [(abs_le.1 error).2, h.slack_le_body, h.reach, h.header, h.body]

variable {top : Float} (finite : top.isFinite = true) (unmoved : 0 ≤ value top)
  (scrolled : value top = 0 ∨
    value top ≤ rows * value g.rowHeight - (value height - value g.headerHeight) / 4)

include scrolled

theorem InProportion.top_le : value top ≤ rows * value g.rowHeight := by
  obtain none | below := scrolled
  · linarith [h.row_le, h.row]
  · linarith [h.body]

include finite unmoved

theorem InProportion.first :
    (top / g.rowHeight).isFinite = true ∧ 0 ≤ value (top / g.rowHeight) ∧
      value (top / g.rowHeight) < rows ∧
      value (top / g.rowHeight) * value g.rowHeight ≤
        value top + value top / 2 ^ 53 + slack * value g.rowHeight := by
  have parts : value top / value g.rowHeight * value g.rowHeight = value top :=
    div_mul_cancel₀ _ h.row.ne'
  have word : (rows : ℚ) ≤ 2 ^ 64 := by exact_mod_cast h.word.le
  have counted : value top / value g.rowHeight ≤ rows := (div_le_iff₀ h.row).2 (h.top_le scrolled)
  obtain ⟨finite', nonneg, error⟩ := (Double.rounded_div finite h.finite_row h.row.ne').near
    (div_nonneg unmoved h.row.le) (counted.trans (word.trans (by norm_num)))
  have scaled : value (top / g.rowHeight) * value g.rowHeight ≤
      value top + value top / 2 ^ 53 + slack * value g.rowHeight := by
    have := mul_le_mul_of_nonneg_right (by linarith [(abs_le.1 error).2] :
      value (top / g.rowHeight) ≤
        value top / value g.rowHeight + value top / value g.rowHeight / 2 ^ 53 + slack) h.row.le
    linarith
  refine ⟨finite', nonneg, lt_of_mul_lt_mul_right ?_ h.row.le, scaled⟩
  obtain none | below := scrolled
  · have := mul_le_mul_of_nonneg_right slack_le h.row.le
    rw [none] at scaled
    linarith [h.row_le, h.row]
  · linarith [h.slack_mul_le, h.reach, h.header, h.body]

theorem InProportion.first_lt_last :
    top / g.rowHeight < (top + Scalar.positive (height - g.headerHeight)) / g.rowHeight := by
  obtain ⟨finite_first, -, -, first⟩ := h.first finite unmoved scrolled
  have inside := h.top_le scrolled
  obtain ⟨finite_height, nonneg_height, error_height⟩ :=
    (Double.rounded_sub h.finite_height h.finite_header).near (by linarith [h.body])
      (by linarith [h.header, h.screen])
  obtain ⟨finite_body, body⟩ := Double.positive_exact finite_height
  rw [max_eq_left nonneg_height] at body
  rw [← body] at nonneg_height error_height
  generalize Scalar.positive (height - g.headerHeight) = body at finite_body nonneg_height error_height
  obtain ⟨finite_end, -, error_end⟩ := (Double.rounded_add finite finite_body).near
    (add_nonneg unmoved nonneg_height)
    (by linarith [(abs_le.1 error_height).2, h.slack_le_body, h.reach, h.header, h.body, h.screen])
  have last : value top + (value height - value g.headerHeight) / 2 ≤ value (top + body) := by
    linarith [(abs_le.1 error_height).1, (abs_le.1 error_end).1, h.slack_le_body, h.reach, h.header, h.body]
  have parts : value (top + body) / value g.rowHeight * value g.rowHeight = value (top + body) :=
    div_mul_cancel₀ _ h.row.ne'
  refine (Double.rounded_div finite_end h.finite_row h.row.ne').lt finite_first ?_ ?_
  · exact div_pos (by linarith [h.body]) h.row
  · refine lt_of_mul_lt_mul_right ?_ h.row.le
    linarith [h.slack_mul_le, h.reach, h.header, h.body]

theorem InProportion.some_visible {viewport : Viewport Float} (size : viewport.height = height) :
    (g.visibleRows rows viewport top).1 < (g.visibleRows rows viewport top).2 := by
  obtain ⟨finite_first, nonneg, listed, -⟩ := h.first finite unmoved scrolled
  have before : ⌊value (top / g.rowHeight)⌋₊ < rows := (Nat.floor_lt nonneg).2 listed
  have word : ⌊value (top / g.rowHeight)⌋₊ < 2 ^ 64 - 1 := by
    have := h.word
    omega
  have shown := Double.floor_lt_ceil finite_first nonneg word (h.first_lt_last finite unmoved scrolled)
  obtain ⟨finite_floor, floor⟩ := Double.floor_exact finite_first nonneg
  have first := Double.toWord_of_value (x := Scalar.floor (top / g.rowHeight)) finite_floor floor
  unfold visibleRows
  rw [size]
  change min _ rows < min _ rows
  omega

end

end Geometry

end Waterfall
