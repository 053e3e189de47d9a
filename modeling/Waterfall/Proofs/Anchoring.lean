import Waterfall.Proofs.Window

set_option autoImplicit false

namespace Waterfall

namespace Scale

theorem invert_rescale {base : Scale ℝ} (ordered : base.range.1 < base.range.2) (z : Zoom ℝ)
    (position : ℝ) : (z.rescale base).invert position = base.invert (z.invert position) := by
  have apart : base.range.2 - base.range.1 ≠ 0 := sub_ne_zero.2 ordered.ne'
  rw [invert_of_lt (s := z.rescale base) ordered]
  simp only [Zoom.rescale, invert_of_lt ordered, Zoom.invert, div_eq_mul_inv]
  field_simp
  ring

end Scale

namespace Zoom

/-- The picture stretched to `k` instead, with the time at the anchor in its place. -/
noncomputable def around (z : Zoom ℝ) (anchor k : ℝ) : Zoom ℝ :=
  ⟨k, anchor - (anchor - z.x) * (k / z.k)⟩

section

variable {z : Zoom ℝ} {range : ℝ × ℝ} {anchor k : ℝ}

theorem constrain_eq_self_iff (stretched : 1 ≤ z.k) (ordered : range.1 ≤ range.2) :
    z.constrain range = z ↔ z.Covers range := by
  constructor
  · intro kept
    exact kept ▸ covers_constrain stretched ordered
  · intro covers
    have bounds : range.2 * (1 - z.k) ≤ range.1 * (1 - z.k) :=
      mul_le_mul_of_nonpos_right ordered (sub_nonpos.2 stretched)
    have low : range.2 * (1 - z.k) ≤ z.x := by linarith [covers.right]
    have high : z.x ≤ range.1 * (1 - z.k) := by linarith [covers.left]
    simp only [constrain, Scalar.real_one, Scalar.real_min, Scalar.real_max]
    rw [min_eq_left bounds, max_eq_left bounds, Scalar.clamp_of_between low high]

theorem invert_around (shown : z.k ≠ 0) (stretched : k ≠ 0) :
    (z.around anchor k).invert anchor = z.invert anchor := by
  simp only [invert, around]
  field_simp
  ring

theorem around_around (shown : z.k ≠ 0) (stretched : k ≠ 0) :
    (z.around anchor k).around anchor z.k = z := by
  have back : (anchor - z.x) * (k / z.k) * (z.k / k) = anchor - z.x := by field_simp
  cases z
  simp only [around, sub_sub_cancel, back]

-- What the picture has beyond an end of the range is stretched too, and the end moves away from the anchor.
theorem Covers.around (covers : z.Covers range) (grows : z.k ≤ k) (left : range.1 ≤ anchor)
    (right : anchor ≤ range.2) : (z.around anchor k).Covers range := by
  have positive : 0 < z.k := one_pos.trans_le covers.stretched
  have more : 1 ≤ k / z.k := (one_le_div positive).2 grows
  have stretch : k = z.k * (k / z.k) := (mul_div_cancel₀ k positive.ne').symm
  have edge (p : ℝ) :
      k * p + (z.around anchor k).x - p = (k / z.k) * (z.k * p + z.x - p) + (k / z.k - 1) * (p - anchor) := by
    simp only [Zoom.around]
    linear_combination p * stretch
  refine ⟨covers.stretched.trans grows, ?_, ?_⟩
  · have shrinks : k / z.k * (z.k * range.1 + z.x - range.1) ≤ 0 :=
      mul_nonpos_of_nonneg_of_nonpos (by linarith) (by linarith [covers.left])
    have inside : (k / z.k - 1) * (range.1 - anchor) ≤ 0 :=
      mul_nonpos_of_nonneg_of_nonpos (by linarith) (by linarith)
    change k * range.1 + (z.around anchor k).x ≤ range.1
    linarith [edge range.1]
  · have expands : 0 ≤ k / z.k * (z.k * range.2 + z.x - range.2) :=
      mul_nonneg (by linarith) (by linarith [covers.right])
    have inside : 0 ≤ (k / z.k - 1) * (range.2 - anchor) := mul_nonneg (by linarith) (by linarith)
    change range.2 ≤ k * range.2 + (z.around anchor k).x
    linarith [edge range.2]

end

section

variable {z : Zoom ℝ} {range : ℝ × ℝ} {limits : ZoomLimits ℝ} {anchor factor : ℝ}

theorem Covers.zoomAt_eq (covers : z.Covers range) (ordered : range.1 ≤ range.2)
    (above : limits.min ≤ z.k) (below : z.k ≤ limits.max) (left : range.1 ≤ anchor)
    (right : anchor ≤ range.2) (grows : 1 ≤ factor) :
    z.zoomAt anchor factor limits range = z.around anchor (min (z.k * factor) limits.max) := by
  have more : z.k ≤ z.k * factor :=
    le_mul_of_one_le_right (zero_le_one.trans covers.stretched) grows
  have limited : Scalar.clamp (z.k * factor) limits.min limits.max = min (z.k * factor) limits.max := by
    rw [Scalar.real_clamp (above.trans below), max_eq_right]
    exact le_min (above.trans more) (above.trans below)
  have around := covers.around (le_min more below) left right
  change constrain (z.around anchor (Scalar.clamp _ _ _)) range = _
  rw [limited]
  exact (constrain_eq_self_iff around.stretched ordered).2 around

theorem Covers.invert_zoomAt {base : Scale ℝ} (covers : z.Covers base.range)
    (ordered : base.range.1 < base.range.2) (above : limits.min ≤ z.k) (below : z.k ≤ limits.max)
    (left : base.range.1 ≤ anchor) (right : anchor ≤ base.range.2) (grows : 1 ≤ factor) :
    ((z.zoomAt anchor factor limits base.range).rescale base).invert anchor =
      (z.rescale base).invert anchor := by
  have shown : 0 < z.k := one_pos.trans_le covers.stretched
  have stretched : 0 < min (z.k * factor) limits.max :=
    lt_min (mul_pos shown (one_pos.trans_le grows)) (shown.trans_le below)
  rw [covers.zoomAt_eq ordered.le above below left right grows, Scale.invert_rescale ordered,
    Scale.invert_rescale ordered, invert_around shown.ne' stretched.ne']

theorem Covers.zoomAt_back (covers : z.Covers range) (ordered : range.1 ≤ range.2)
    (above : limits.min ≤ z.k) (below : z.k ≤ limits.max) (grows : 1 ≤ factor) :
    (z.around anchor (z.k * factor)).zoomAt anchor (1 / factor) limits range = z := by
  have positive : z.k ≠ 0 := (one_pos.trans_le covers.stretched).ne'
  have factored : factor ≠ 0 := (one_pos.trans_le grows).ne'
  have shrunk : z.k * factor * (1 / factor) = z.k := by field_simp
  have limited : Scalar.clamp (z.k * factor * (1 / factor)) limits.min limits.max = z.k := by
    rw [shrunk, Scalar.clamp_of_between above below]
  change constrain ((z.around anchor (z.k * factor)).around anchor (Scalar.clamp _ _ _)) range = z
  rw [show (z.around anchor (z.k * factor)).k = z.k * factor from rfl, limited,
    around_around positive (mul_ne_zero positive factored)]
  exact (constrain_eq_self_iff covers.stretched ordered).2 covers

end

/-- Zooming in keeps the time at the anchor where it is, and zooming out by as much restores the picture unless
the limits stop either. -/
theorem zoomAt_anchored (z : Zoom ℝ) (limits : ZoomLimits ℝ) (base : Scale ℝ) (anchor factor : ℝ)
    (ordered : base.range.1 < base.range.2) (least : 1 ≤ limits.min) (above : limits.min ≤ z.k)
    (below : z.k ≤ limits.max) (kept : z.constrain base.range = z) (left : base.range.1 ≤ anchor)
    (right : anchor ≤ base.range.2) (grows : 1 ≤ factor) :
    let zoomed := z.zoomAt anchor factor limits base.range
    zoomed.k = min (z.k * factor) limits.max ∧
      zoomed.x = anchor - (anchor - z.x) * (zoomed.k / z.k) ∧
      (zoomed.rescale base).invert anchor = (z.rescale base).invert anchor ∧
      (zoomed.k = z.k * factor → zoomed.zoomAt anchor (1 / factor) limits base.range = z) := by
  intro zoomed
  have covers : z.Covers base.range := (constrain_eq_self_iff (least.trans above) ordered.le).1 kept
  have eq : zoomed = z.around anchor (min (z.k * factor) limits.max) :=
    covers.zoomAt_eq ordered.le above below left right grows
  refine ⟨by rw [eq]; rfl, by rw [eq]; rfl, ?_, ?_⟩
  · exact covers.invert_zoomAt ordered above below left right grows
  · intro free
    have reached : min (z.k * factor) limits.max = z.k * factor :=
      (congrArg Zoom.k eq).symm.trans free
    rw [eq, reached]
    exact covers.zoomAt_back ordered.le above below grows

theorem zoomAt_anchored_fourfold :
    let base : Scale ℝ := ⟨(0, 1000), (200, 1200)⟩
    let limits : ZoomLimits ℝ := ⟨1, 100, 1.25⟩
    let z : Zoom ℝ := ⟨2, -300⟩
    let zoomed := z.zoomAt 700 4 limits base.range
    base.range.1 < base.range.2 ∧ 1 ≤ limits.min ∧ limits.min ≤ z.k ∧ z.k ≤ limits.max ∧
      z.constrain base.range = z ∧ base.range.1 ≤ 700 ∧ 700 ≤ base.range.2 ∧ (1 : ℝ) ≤ 4 ∧
      zoomed.k = 8 ∧ zoomed.x = -3300 ∧
      (zoomed.rescale base).invert 700 = (z.rescale base).invert 700 ∧
      zoomed.zoomAt 700 (1 / 4) limits base.range = z := by
  intro base limits z zoomed
  have ordered : base.range.1 < base.range.2 := by norm_num [base]
  have least : 1 ≤ limits.min := le_rfl
  have above : limits.min ≤ z.k := by norm_num [limits, z]
  have below : z.k ≤ limits.max := by norm_num [limits, z]
  have kept : z.constrain base.range = z := by
    rw [constrain_eq_self_iff (least.trans above) ordered.le]
    constructor <;> norm_num [base, z]
  have left : base.range.1 ≤ 700 := by norm_num [base]
  have right : 700 ≤ base.range.2 := by norm_num [base]
  have grows : (1 : ℝ) ≤ 4 := by norm_num
  obtain ⟨k, x, anchored, back⟩ :=
    zoomAt_anchored z limits base 700 4 ordered least above below kept left right grows
  have eight : (z.zoomAt 700 4 limits base.range).k = 8 := k.trans (by norm_num [z, limits])
  rw [eight] at x
  have shifted : zoomed.x = -3300 := x.trans (by norm_num [z])
  exact ⟨ordered, least, above, below, kept, left, right, grows, eight, shifted, anchored,
    back (eight.trans (by norm_num [z]))⟩

end Zoom

end Waterfall
