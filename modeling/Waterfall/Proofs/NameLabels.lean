import Mathlib.Tactic.Linarith
import Mathlib.Tactic.NormNum
import Mathlib.Tactic.Ring
import Waterfall.Chart
import Waterfall.Proofs.Exact

set_option autoImplicit false

namespace Waterfall

section

variable {s : String} {limit : ℕ}

theorem truncate_of_le (fits : s.length ≤ limit) : truncate s limit = s := by
  unfold truncate
  dsimp only
  rw [String.length_toList, if_pos fits]

theorem truncate_of_lt (some_room : 0 < limit) (long : limit < s.length) :
    truncate s limit = String.ofList (s.toList.take (limit - 1) ++ ['…']) := by
  unfold truncate
  dsimp only
  rw [String.length_toList, if_neg (not_le.2 long), if_neg some_room.ne']

theorem length_truncate_of_lt (some_room : 0 < limit) (long : limit < s.length) :
    (truncate s limit).length = limit := by
  rw [truncate_of_lt some_room long, String.length_ofList, List.length_append, List.length_take,
    String.length_toList, List.length_singleton]
  omega

theorem truncate_eq_self_iff (some_room : 0 < limit) : truncate s limit = s ↔ s.length ≤ limit := by
  refine ⟨fun same => ?_, truncate_of_le⟩
  by_contra long
  have cut := length_truncate_of_lt some_room (not_le.1 long)
  rw [same] at cut
  omega

theorem length_truncate_le (some_room : 0 < limit) : (truncate s limit).length ≤ limit := by
  obtain fits | long := le_or_gt s.length limit
  · rwa [truncate_of_le fits]
  · exact (length_truncate_of_lt some_room long).le

end

namespace Chart

noncomputable def nameEnd (g : Geometry ℝ) (row : Row) : ℝ :=
  durationX g - (Label.duration row.span.duration).length * g.charWidth - g.labelPadding

theorem labelRoom_eq (g : Geometry ℝ) (row : Row) :
    labelRoom g row = min ⌊(nameEnd g row - labelX g row) / g.charWidth⌋₊ (2 ^ 64 - 1) :=
  Scalar.toWord_floor _

section

variable {g : Geometry ℝ} {row : Row} (positive : 0 < g.charWidth)

include positive

theorem le_labelRoom_iff (some_room : 0 < labelRoom g row) {n : ℕ} :
    n ≤ labelRoom g row ↔ n < 2 ^ 64 ∧ labelX g row + n * g.charWidth ≤ nameEnd g row := by
  have room := labelRoom_eq g row
  have ends (m : ℕ) (counts : m ≠ 0) :
      m ≤ ⌊(nameEnd g row - labelX g row) / g.charWidth⌋₊ ↔
        labelX g row + m * g.charWidth ≤ nameEnd g row := by
    rw [Nat.le_floor_iff' counts, le_div_iff₀ positive, le_sub_iff_add_le']
  by_cases none_shown : n = 0
  · have one : labelX g row + (1 : ℕ) * g.charWidth ≤ nameEnd g row := (ends 1 one_ne_zero).1 (by omega)
    rw [Nat.cast_one, one_mul] at one
    subst none_shown
    refine iff_of_true (Nat.zero_le _) ⟨by norm_num, ?_⟩
    rw [Nat.cast_zero, zero_mul]
    linarith
  · rw [← ends n none_shown, room]
    omega

end

variable {c : Chart ℝ} {f : Frame ℝ} {row : Row} {x y : ℝ} {label : String} {ink : Color} {anchor : Anchor}
  {bold : Bool}

theorem text_mem_rowShapes_iff :
    .text x y label ink anchor bold ∈ c.rowShapes f row ↔
      .text x y label ink anchor bold ∈
          c.nameShapes row (c.geometry.rowTop row.index + c.geometry.rowHeight / 2) ∨
        Shape.text x y label ink anchor bold =
          .text (durationX c.geometry) (c.geometry.rowTop row.index + c.geometry.rowHeight / 2)
            (Label.duration row.span.duration) c.palette.muted .finish false := by
  have bar (top : ℝ) : .text x y label ink anchor bold ∉ c.barShapes f row top := by
    unfold barShapes
    dsimp only
    split <;> simp
  simp only [rowShapes, List.mem_append, List.mem_singleton, bar, or_false]
  split <;> split <;> simp

theorem text_mem_nameShapes_iff {middle : ℝ} :
    .text x y label ink anchor bold ∈ c.nameShapes row middle ↔
      0 < labelRoom c.geometry row ∧
        Shape.text x y label ink anchor bold =
          .text (labelX c.geometry row) middle (truncate row.span.name (labelRoom c.geometry row))
            c.palette.foreground .start row.span.isRoot := by
  unfold nameShapes
  dsimp only
  split
  next some_room => rw [List.mem_singleton, and_iff_right some_room]
  next no_room => exact iff_of_false List.not_mem_nil fun h => no_room h.1

/-- A name that ends in time is shown as a whole, and any other cut to as many characters as do, the last of which
tells of the cut. -/
theorem name_clear_of_duration (c : Chart ℝ) (f : Frame ℝ) (row : Row)
    (positive : 0 < c.geometry.charWidth) (short : row.span.name.length < 2 ^ 64) {x y : ℝ}
    {label : String} {ink : Color} {bold : Bool}
    (named : .text x y label ink .start bold ∈ c.rowShapes f row) :
    let g := c.geometry
    let name := row.span.name
    let duration := Label.duration row.span.duration
    let left := durationX g - duration.length * g.charWidth
    .text (durationX g) y duration c.palette.muted .finish false ∈ c.rowShapes f row ∧
      x + label.length * g.charWidth ≤ left - g.labelPadding ∧
      (label = name ↔ x + name.length * g.charWidth ≤ left - g.labelPadding) ∧
      (label ≠ name →
        (∃ kept, kept <+: name.toList ∧ kept.length < name.length ∧
          label = String.ofList (kept ++ ['…'])) ∧
        left - g.labelPadding < x + (label.length + 1) * g.charWidth) := by
  intro g name duration left
  rw [text_mem_rowShapes_iff, text_mem_nameShapes_iff] at named
  obtain ⟨some_room, shown⟩ := named.resolve_right (by simp)
  obtain ⟨rfl, rfl, rfl, -⟩ := Shape.text.inj shown
  have ends (n : ℕ) : n ≤ labelRoom g row ↔ n < 2 ^ 64 ∧ labelX g row + n * g.charWidth ≤ nameEnd g row :=
    le_labelRoom_iff positive some_room
  have whole : truncate name (labelRoom g row) = name ↔
      labelX g row + name.length * g.charWidth ≤ nameEnd g row := by
    rw [truncate_eq_self_iff some_room, ends, and_iff_right short]
  refine ⟨text_mem_rowShapes_iff.2 (.inr rfl), ((ends _).1 (length_truncate_le some_room)).2, whole,
    fun cut => ?_⟩
  have long : labelRoom g row < name.length := not_le.1 (mt truncate_of_le cut)
  refine ⟨⟨name.toList.take (labelRoom g row - 1), List.take_prefix _ _, ?_,
    truncate_of_lt some_room long⟩, ?_⟩
  · rw [List.length_take, String.length_toList]
    omega
  · have beyond := mt (ends (labelRoom g row + 1)).2 (Nat.not_succ_le_self _)
    rw [not_and, not_le, Nat.cast_add, Nat.cast_one] at beyond
    rw [length_truncate_of_lt some_room long]
    exact beyond (Nat.lt_of_le_of_lt long short)

-- There is room for fourteen characters, two less than the name has.
theorem name_clear_of_duration_cut :
    let c : Chart ℝ := ⟨.standard, default, []⟩
    let f : Frame ℝ :=
      { rows := [], scale := ⟨(0, 1), (0, 1)⟩, selected := none, hovered := none, viewport := ⟨800, 400⟩
        scrollTop := 0 }
    let row : Row := ⟨{ (default : Span) with name := "catalog:security", duration := 2345 }, 3, 2⟩
    0 < c.geometry.charWidth ∧ row.span.name.length < 2 ^ 64 ∧
      .text 48 114 "catalog:secur…" default .start true ∈ c.rowShapes f row ∧
      .text 192 114 "2.3ms" default .finish false ∈ c.rowShapes f row ∧
      48 + "catalog:secur…".length * c.geometry.charWidth ≤
        192 - "2.3ms".length * c.geometry.charWidth - c.geometry.labelPadding := by
  intro c f row
  have positive : 0 < c.geometry.charWidth := by
    change (0 : ℝ) < 7
    norm_num
  have duration : Label.duration row.span.duration = "2.3ms" := by decide +kernel
  have start : labelX c.geometry row = 48 := by
    change (8 + (2 : ℕ) * 12 + 4 + 4 + 8 : ℝ) = 48
    norm_num
  have finish : durationX c.geometry = 192 := by
    change (200 - 8 : ℝ) = 192
    norm_num
  have width : c.geometry.charWidth = 7 := rfl
  have padding : c.geometry.labelPadding = 8 := rfl
  have length : "2.3ms".length = 5 := by decide
  have room : labelRoom c.geometry row = 14 := by
    have most : ⌊(101 / 7 : ℝ)⌋₊ = 14 := (Nat.floor_eq_iff (by norm_num)).2 (by norm_num)
    have left : (nameEnd c.geometry row - labelX c.geometry row) / c.geometry.charWidth = 101 / 7 := by
      rw [nameEnd, start, finish, duration, width, padding, length]
      norm_num
    rw [labelRoom_eq, left, most]
    rfl
  have middle : c.geometry.rowTop row.index + c.geometry.rowHeight / 2 = 114 := by
    change (30 + (3 : ℕ) * 24 + 24 / 2 : ℝ) = 114
    norm_num
  have cut : truncate row.span.name 14 = "catalog:secur…" := by decide +kernel
  have named : .text 48 114 "catalog:secur…" default .start true ∈ c.rowShapes f row := by
    rw [text_mem_rowShapes_iff, text_mem_nameShapes_iff, room, start, middle, cut]
    exact .inl ⟨by decide, rfl⟩
  have short : row.span.name.length < 2 ^ 64 := by decide +kernel
  obtain ⟨shown, clear, -⟩ := name_clear_of_duration c f row positive short named
  rw [duration, finish] at shown clear
  exact ⟨positive, short, named, shown, clear⟩

end Chart

end Waterfall
