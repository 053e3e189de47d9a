import Mathlib.Tactic.Linarith
import Mathlib.Tactic.NormNum
import Mathlib.Tactic.Ring
import Waterfall.Proofs.Scrolling
import Waterfall.Terminal.Paint

set_option autoImplicit false

namespace Waterfall

namespace Terminal

def ChangesOnly (cells : ℕ → ℕ → Prop) (s t : Screen) : Prop :=
  ∀ x y, ¬ cells x y → t.get? x y = s.get? x y

section

variable {P Q : ℕ → ℕ → Prop} {s t u : Screen}

theorem ChangesOnly.refl (s : Screen) : ChangesOnly P s s :=
  fun _ _ _ => rfl

theorem ChangesOnly.trans (first : ChangesOnly P s t) (second : ChangesOnly P t u) :
    ChangesOnly P s u :=
  fun x y outside => (second x y outside).trans (first x y outside)

theorem ChangesOnly.mono (changes : ChangesOnly P s t) (h : ∀ x y, P x y → Q x y) :
    ChangesOnly Q s t :=
  fun x y outside => changes x y fun inside => outside (h x y inside)

theorem ChangesOnly.foldl {β : Type} {f : Screen → β → Screen}
    (step : ∀ s b, ChangesOnly P s (f s b)) (s : Screen) (l : List β) :
    ChangesOnly P s (l.foldl f s) := by
  induction l generalizing s with
  | nil => exact .refl s
  | cons b rest ih => exact (step s b).trans (ih (f s b))

end

namespace Layer

section

variable {α : Type} [Scalar α] (l : Layer α)

def Line (y : α) (column line : ℕ) : Prop :=
  ∃ x, l.cell? x y = some (column, line)

def Within (m _column line : ℕ) : Prop :=
  line = l.area.y + m ∧ l.top ≤ m ∧ m < l.bottom

def Paints (shape : Shape α) (column line : ℕ) : Prop :=
  ∃ s : Screen, (l.shape s shape).get? column line ≠ s.get? column line

theorem changesOnly_dab (s : Screen) (x y : α) (f : Cell → Cell) :
    ChangesOnly (fun column line => l.cell? x y = some (column, line)) s (l.dab s x y f) := by
  intro column line outside
  unfold dab
  split
  next column' line' inside =>
    rw [Screen.get?_modify, if_neg]
    rintro ⟨rfl, rfl⟩
    exact outside inside
  next => rfl

theorem changesOnly_writeChars {P : ℕ → ℕ → Prop} (start y : α) (style : Style) (i : ℕ)
    (cs : List Char) (inside : ∀ j, ∀ column line,
      l.cell? (start + Scalar.ofNat j) y = some (column, line) → P column line) (s : Screen) :
    ChangesOnly P s (l.writeChars s start y style i cs) := by
  induction cs generalizing s i with
  | nil => exact .refl s
  | cons c rest ih =>
    have dabbed := l.changesOnly_dab s (start + Scalar.ofNat i) y
      (·.showing (String.singleton c) style)
    exact (dabbed.mono (inside i)).trans (ih _ _)

theorem changesOnly_fillLines {P : ℕ → ℕ → Prop} (columns : List ℕ) (f : Cell → Cell) (row : ℤ)
    (n : ℕ) (inside : ∀ i : ℕ, i < n →
      ∀ x y, l.Line (Scalar.ofInt (row + i) + l.shift) x y → P x y) (s : Screen) :
    ChangesOnly P s (l.fillLines s columns f row n) := by
  induction n generalizing s row with
  | zero => exact .refl s
  | succ n ih =>
    have first : ChangesOnly P s (columns.foldl
        (fun s i => l.dab s (Scalar.ofNat i) (Scalar.ofInt row + l.shift) f) s) := by
      refine .foldl (fun s i => (l.changesOnly_dab s _ _ f).mono fun x y dabbed => ?_) s columns
      exact inside 0 n.succ_pos x y ⟨_, by simpa using dabbed⟩
    refine first.trans (ih (row + 1) (fun i below x y h => ?_) _)
    refine inside (i + 1) (Nat.succ_lt_succ below) x y ?_
    rwa [Nat.cast_succ, add_comm (i : ℤ) 1, ← add_assoc]

end

variable {l : Layer ℝ} {n k : ℕ}

theorem line_of_between (shift : l.shift = n) (le : n ≤ k) {y : ℝ} (low : (k : ℝ) ≤ y)
    (high : y < k + 1) : l.line y = (min (k - n) (2 ^ 63 - 1) : ℕ) := by
  have whole : ⌊y - n⌋ = (k - n : ℕ) := by
    rw [Int.floor_eq_iff, Int.cast_natCast, Nat.cast_sub le]
    constructor
    next => linarith
    next => linarith
  rw [line, shift, Scalar.real_floor, whole, Int.cast_natCast, Scalar.toInt_natCast]

theorem Line.within {y : ℝ} {m column line : ℕ} (inside : l.Line y column line)
    (at_m : l.line y = m) : l.Within m column line := by
  obtain ⟨x, cell⟩ := inside
  unfold cell? at cell
  rw [at_m] at cell
  dsimp only at cell
  split at cell
  next => cases cell
  next within =>
    simp only [Option.some.injEq, Prod.mk.injEq, Int.toNat_natCast] at cell
    exact ⟨cell.2.symm, by omega, by omega⟩

end Layer

end Terminal

open Terminal

def Shape.Between (k : ℕ) : Shape ℝ → Prop
  | .rect _ y _ height _ => y = k ∧ height = 1
  | .line _ _ _ _ _ => False
  | .text _ y _ _ _ _ | .dot _ y _ _ => y = k + 1 / 2

namespace Shape

variable {shape : Shape ℝ} {l : Layer ℝ} {n k : ℕ}

theorem Between.inj {k' : ℕ} (between : shape.Between k) (between' : shape.Between k') :
    k = k' := by
  cases shape with
  | rect _ _ _ _ _ => exact Nat.cast_injective (between.1.symm.trans between'.1)
  | line _ _ _ _ _ => exact between.elim
  | text _ _ _ _ _ _ | dot _ _ _ _ =>
    exact Nat.cast_injective (add_right_cancel (between.symm.trans between'))

theorem Between.changesOnly (between : shape.Between k) (shift : l.shift = n) (le : n ≤ k)
    (s : Screen) : ChangesOnly (l.Within (min (k - n) (2 ^ 63 - 1))) s (l.shape s shape) := by
  cases shape with
  | line _ _ _ _ _ => exact between.elim
  | text x y text color anchor bold =>
    have middle : l.line y = (min (k - n) (2 ^ 63 - 1) : ℕ) :=
      Layer.line_of_between shift le (by rw [between]; linarith) (by rw [between]; linarith)
    exact l.changesOnly_writeChars _ y _ 0 _
      (fun _ _ _ inside => Layer.Line.within ⟨_, inside⟩ middle) s
  | dot x y r color =>
    have middle : l.line y = (min (k - n) (2 ^ 63 - 1) : ℕ) :=
      Layer.line_of_between shift le (by rw [between]; linarith) (by rw [between]; linarith)
    exact (l.changesOnly_dab s x y _).mono fun _ _ inside => Layer.Line.within ⟨x, inside⟩ middle
  | rect x y width height color =>
    obtain ⟨rfl, rfl⟩ := between
    have first : l.line k = (min (k - n) (2 ^ 63 - 1) : ℕ) :=
      Layer.line_of_between shift le le_rfl (by linarith)
    have after : l.stretchEnd k 1 ≤ l.line k + 1 := by
      have next : ⌈(k : ℝ) + 1 - n⌉ = (k - n + 1 : ℕ) := by
        rw [Int.ceil_eq_iff, Int.cast_natCast, Nat.cast_succ, Nat.cast_sub le]
        constructor
        next => linarith
        next => linarith
      rw [Layer.stretchEnd, shift, Scalar.real_ceil, next, Int.cast_natCast, Scalar.toInt_natCast,
        first]
      simp only [Nat.pow_eq]
      omega
    refine l.changesOnly_fillLines _ _ _ _ (fun i below x y inside => inside.within ?_) s
    have only : i = 0 := by omega
    have back : Scalar.ofInt (l.line (k : ℝ) + i) + l.shift =
        ((min (k - n) (2 ^ 63 - 1) + n : ℕ) : ℝ) := by
      rw [only, first, shift, Scalar.real_ofInt]
      push_cast
      ring
    rw [back, Layer.line_of_between shift (Nat.le_add_left n _) le_rfl (by linarith)]
    simp

theorem Between.line_of_paints (between : shape.Between k) (shift : l.shift = n) (le : n ≤ k)
    {column line : ℕ} (paints : l.Paints shape column line) :
    l.Within (min (k - n) (2 ^ 63 - 1)) column line := by
  obtain ⟨s, changed⟩ := paints
  by_contra outside
  exact changed (between.changesOnly shift le s column line outside)

theorem column_eq {x : ℝ} (right : 0 ≤ x) :
    Scalar.toInt (Scalar.floor x) = (min ⌊x⌋₊ (2 ^ 63 - 1) : ℕ) := by
  rw [Scalar.real_floor, ← Int.natCast_floor_eq_floor right, Int.cast_natCast,
    Scalar.toInt_natCast]

-- A dot that is no further right than the area shows on a blank screen.
theorem dot_paints {x y r : ℝ} {color : Color} (shift : l.shift = n) (le : n ≤ k)
    (between : (dot x y r color).Between k) (top : l.top ≤ (k - n : ℕ))
    (bottom : ((k - n : ℕ) : ℤ) < l.bottom) (near : k - n < 2 ^ 63) (right : 0 ≤ x)
    (fits : x < l.area.width) :
    ∃ column, l.Paints (dot x y r color) column (l.area.y + (k - n)) := by
  have line : l.line y = (k - n : ℕ) := by
    rw [Layer.line_of_between shift le (by rw [between]; linarith) (by rw [between]; linarith)]
    omega
  have column := column_eq right
  have inside : ⌊x⌋₊ < l.area.width := (Nat.floor_lt right).2 fits
  have cell : l.cell? x y =
      some (l.area.x + min ⌊x⌋₊ (2 ^ 63 - 1), l.area.y + (k - n)) := by
    unfold Layer.cell?
    dsimp only
    rw [column, line, if_neg (by omega), Int.toNat_natCast, Int.toNat_natCast]
  generalize l.area.x + min ⌊x⌋₊ (2 ^ 63 - 1) = i at cell
  generalize l.area.y + (k - n) = j at cell
  have empty : (Screen.blank ⟨i, j, 1, 1⟩).get? i j = some {} := by
    simp [Screen.blank, Screen.get?, Screen.index, Rect.Contains, Rect.right, Rect.bottom]
  refine ⟨i, .blank ⟨i, j, 1, 1⟩, ?_⟩
  simp only [Layer.shape, Layer.dab, cell]
  rw [Screen.get?_modify, if_pos ⟨rfl, rfl⟩, empty]
  simp [Cell.showing, Cell.styled]

def Beyond (width : ℕ) : Shape ℝ → Prop
  | .text x _ label _ anchor _ => width ≤ Layer.textStart x label.length anchor
  | .dot x _ _ _ => width ≤ x
  | .rect _ _ _ _ _ | .line _ _ _ _ _ => False

theorem cell?_eq_none_of_beyond {x y : ℝ} (beyond : l.area.width ≤ x)
    (narrow : l.area.width < 2 ^ 63) : l.cell? x y = none := by
  have right : 0 ≤ x := le_trans (Nat.cast_nonneg _) beyond
  have outside : l.area.width ≤ ⌊x⌋₊ := Nat.le_floor beyond
  unfold Layer.cell?
  dsimp only
  rw [column_eq right, if_pos (by omega)]

theorem not_paints_of_beyond (beyond : shape.Beyond l.area.width) (narrow : l.area.width < 2 ^ 63)
    (column line : ℕ) : ¬ l.Paints shape column line := by
  rintro ⟨s, changed⟩
  have nothing : ChangesOnly (fun _ _ => False) s (l.shape s shape) := by
    cases shape with
    | rect _ _ _ _ _ | line _ _ _ _ _ => exact beyond.elim
    | text x y text color anchor bold =>
      refine l.changesOnly_writeChars _ y _ 0 _ (fun j _ _ inside => ?_) s
      have further : (l.area.width : ℝ) ≤ Layer.textStart x text.length anchor + Scalar.ofNat j :=
        le_add_of_le_of_nonneg beyond (Nat.cast_nonneg j)
      exact nomatch inside.symm.trans (cell?_eq_none_of_beyond further narrow)
    | dot x y r color =>
      refine (l.changesOnly_dab s x y _).mono fun _ _ inside => ?_
      exact nomatch inside.symm.trans (cell?_eq_none_of_beyond beyond narrow)
  exact changed (nothing column line not_false)

end Shape

namespace Chart

variable (chart : Chart ℝ) (f : Frame ℝ) (row : Row)

inductive RowShape (labelWidth : ℕ) : Shape ℝ → Prop where
  | highlight (x : ℝ) {fill : Color} (lit : highlight? chart f row = some fill) :
      RowShape labelWidth (.rect x (row.index + 2 : ℕ) f.viewport.width 1 fill)
  | dot (color : Color) :
      RowShape labelWidth (.dot (dotX (.terminal labelWidth) row)
        ((row.index + 2 : ℕ) + 1 / 2) (1 / 2) color)
  | name (label : String) (color : Color) (bold : Bool) :
      RowShape labelWidth (.text (labelX (.terminal labelWidth) row)
        ((row.index + 2 : ℕ) + 1 / 2) label color .start bold)
  | duration (color : Color) :
      RowShape labelWidth (.text (durationX (.terminal labelWidth))
        ((row.index + 2 : ℕ) + 1 / 2) (Label.duration row.span.duration) color .finish false)
  | bar {x : ℝ} (width : ℝ) (color : Color) (gutter : labelWidth ≤ x)
      (room : x < f.viewport.width) :
      RowShape labelWidth (.rect x (row.index + 2 : ℕ) width 1 color)

variable {chart f row} in
theorem rowShape_of_mem {labelWidth : ℕ} (terminal : chart.geometry = .terminal labelWidth)
    {shape : Shape ℝ} (member : shape ∈ chart.rowShapes f row) :
    RowShape chart f row labelWidth shape := by
  have height : chart.geometry.rowHeight = 1 := terminal ▸ Geometry.rowHeight_terminal _
  have inset : chart.geometry.barInset = 0 := terminal ▸ Scalar.real_zero
  have radius : chart.geometry.dotRadius = 1 / 2 := terminal ▸ Scalar.real_half
  have gutter : chart.geometry.labelGutter = labelWidth := by rw [terminal]; rfl
  have top : chart.geometry.rowTop row.index = (row.index + 2 : ℕ) := by
    rw [Geometry.rowTop, height, terminal, Geometry.headerHeight_terminal, Scalar.real_ofNat]
    push_cast
    ring
  have thick : (1 : ℝ) - 2 * 0 = 1 := by norm_num
  unfold rowShapes nameShapes barShapes at member
  simp only [List.mem_append, top, height, inset, radius, thick, add_zero] at member
  obtain ((((highlight | divider) | dot) | name) | duration) | bar := member
  · split at highlight
    next lit =>
      cases List.mem_singleton.1 highlight
      exact .highlight _ lit
    next => cases highlight
  · rw [terminal] at divider
    cases divider
  · cases List.mem_singleton.1 dot
    rw [terminal]
    exact .dot _
  · split at name
    next =>
      cases List.mem_singleton.1 name
      rw [terminal]
      exact .name _ _ _
    next => cases name
  · cases List.mem_singleton.1 duration
    rw [terminal]
    exact .duration _
  · split at bar
    next room =>
      cases List.mem_singleton.1 bar
      refine .bar _ _ ?_ room
      rw [gutter, Scalar.real_max]
      exact le_max_right _ _
    next => cases bar

theorem between_of_mem_rowShapes {labelWidth : ℕ} (terminal : chart.geometry = .terminal labelWidth)
    {shape : Shape ℝ} (member : shape ∈ chart.rowShapes f row) :
    shape.Between (row.index + 2) := by
  cases rowShape_of_mem terminal member with
  | highlight _ _ | bar _ _ _ _ => exact ⟨rfl, rfl⟩
  | dot _ | name _ _ _ | duration _ => rfl

theorem dot_mem_rowShapes : .dot (dotX chart.geometry row)
    (chart.geometry.rowTop row.index + chart.geometry.rowHeight / 2) chart.geometry.dotRadius
    (chart.colors.colorOf row.span.service row.span.status) ∈ chart.rowShapes f row := by
  simp [rowShapes]

theorem dotX_terminal (labelWidth : ℕ) :
    dotX (.terminal labelWidth) row = (2 * row.depth + 3 / 2 : ℝ) := by
  have padding : (Geometry.terminal labelWidth : Geometry ℝ).labelPadding = 1 := Scalar.real_one
  have indent : (Geometry.terminal labelWidth : Geometry ℝ).indent = 2 := rfl
  have radius : (Geometry.terminal labelWidth : Geometry ℝ).dotRadius = 1 / 2 := Scalar.real_half
  rw [dotX, padding, indent, radius, Scalar.real_ofNat]
  ring

-- A row that is not highlighted leaves the first column empty.
theorem beyond_of_mem_rowShapes {labelWidth : ℕ} (terminal : chart.geometry = .terminal labelWidth)
    (plain : highlight? chart f row = none) (narrow : f.viewport.width = 1)
    (room : (Label.duration row.span.duration).length + 2 ≤ labelWidth) {shape : Shape ℝ}
    (member : shape ∈ chart.rowShapes f row) : shape.Beyond 1 := by
  have depth : (0 : ℝ) ≤ row.depth := row.depth.cast_nonneg
  have padding : (Geometry.terminal labelWidth : Geometry ℝ).labelPadding = 1 := Scalar.real_one
  have radius : (Geometry.terminal labelWidth : Geometry ℝ).dotRadius = 1 / 2 := Scalar.real_half
  have gutter : (Geometry.terminal labelWidth : Geometry ℝ).labelGutter = labelWidth := rfl
  have wide : ((Label.duration row.span.duration).length : ℝ) + 2 ≤ labelWidth := by
    exact_mod_cast room
  have length : (0 : ℝ) ≤ (Label.duration row.span.duration).length := Nat.cast_nonneg _
  cases rowShape_of_mem terminal member with
  | highlight _ lit => exact nomatch plain.symm.trans lit
  | dot _ =>
    change ((1 : ℕ) : ℝ) ≤ dotX (.terminal labelWidth) row
    rw [dotX_terminal, Nat.cast_one]
    linarith
  | name _ _ _ =>
    change ((1 : ℕ) : ℝ) ≤ labelX (.terminal labelWidth) row
    rw [labelX, dotX_terminal, padding, radius, Nat.cast_one]
    linarith
  | duration _ =>
    change ((1 : ℕ) : ℝ) ≤ durationX (.terminal labelWidth) - Scalar.ofNat _
    rw [durationX, padding, gutter, Scalar.real_ofNat, Nat.cast_one]
    linarith
  | bar _ _ right inside =>
    rw [narrow] at inside
    linarith

end Chart

end Waterfall
