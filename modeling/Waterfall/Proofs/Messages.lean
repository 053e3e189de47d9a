import Waterfall.Proofs.Clipping

set_option autoImplicit false

namespace Waterfall

namespace Terminal

def Stretch (x y width : ℕ) (column line : ℕ) : Prop :=
  line = y ∧ x ≤ column ∧ column < x + width

namespace Screen

/-- The columns that a text takes where there is room for all of it. -/
def columns [Graphemes] (text : String) : ℕ :=
  ((visible text).map Cluster.width).sum

section

variable {s : Screen} {x y room : ℕ} {g : Cluster} {gs : List Cluster}

theorem area_points (f : Cell → Cell) (points : List (ℕ × ℕ)) (s : Screen) :
    (points.foldl (fun s (x, y) => s.modify x y f) s).area = s.area := by
  induction points generalizing s with
  | nil => rfl
  | cons p rest ih => exact (ih _).trans (s.area_modify p.1 p.2 f)

@[simp] theorem area_restyle (s : Screen) (area : Rect) (style : Style) :
    (s.restyle area style).area = s.area :=
  area_points _ _ s

theorem putCluster_eq (s : Screen) (x y : ℕ) (g : Cluster) (style : Style) :
    s.putCluster x y g style =
      ((List.range (g.width - 1)).map fun i => (x + 1 + i, y)).foldl
        (fun s (x, y) => s.modify x y fun _ => {}) (s.put x y g.text style) := by
  rw [putCluster, List.foldl_map]

@[simp] theorem area_putCluster (s : Screen) (x y : ℕ) (g : Cluster) (style : Style) :
    (s.putCluster x y g style).area = s.area := by
  rw [putCluster_eq, area_points]
  exact s.area_modify x y _

theorem changesOnly_putCluster (taken : 0 < g.width) (s : Screen) (x y : ℕ) (style : Style) :
    ChangesOnly (Stretch x y g.width) s (s.putCluster x y g style) := by
  have first : ChangesOnly (Stretch x y g.width) s (s.put x y g.text style) := by
    intro column line outside
    rw [get?_put, if_neg]
    rintro ⟨rfl, rfl⟩
    exact outside ⟨rfl, le_rfl, by omega⟩
  rw [putCluster_eq]
  refine first.trans ((changesOnly_points _ _ _).mono fun column line hidden => ?_)
  obtain ⟨i, below, same⟩ := List.mem_map.1 hidden
  obtain ⟨rfl, rfl⟩ := Prod.mk.inj same
  have counted : i < g.width - 1 := List.mem_range.1 below
  exact ⟨rfl, by omega, by omega⟩

theorem exists_writeClusters? (style : Style) (cells : ∀ i < room, s.area.Contains (x + i) y)
    (taken : ∀ g ∈ gs, 0 < g.width) :
    ∃ t, s.writeClusters? x y room style gs = some t ∧
      ChangesOnly (Stretch x y (min room (gs.map Cluster.width).sum)) s t := by
  induction gs generalizing s x room with
  | nil => exact ⟨s, rfl, .refl s⟩
  | cons g rest ih =>
    have some_width : 0 < g.width := taken g List.mem_cons_self
    rw [writeClusters?]
    split
    next => exact ⟨s, rfl, .refl s⟩
    next room_left =>
      have cell : s.area.Contains x y := cells 0 (by omega)
      rw [if_pos cell]
      have further : ∀ i < room - g.width,
          (s.putCluster x y g style).area.Contains (x + g.width + i) y := by
        intro i below
        rw [area_putCluster, Nat.add_assoc]
        exact cells (g.width + i) (by omega)
      obtain ⟨t, written, changes⟩ := ih further fun h member => taken h (List.mem_cons_of_mem g member)
      refine ⟨t, written, ?_⟩
      rw [List.map_cons, List.sum_cons]
      refine ((changesOnly_putCluster some_width s x y style).mono ?_).trans (changes.mono ?_)
      · rintro column line ⟨same, left, right⟩
        exact ⟨same, left, by omega⟩
      · rintro column line ⟨same, left, right⟩
        exact ⟨same, by omega, by omega⟩

theorem exists_write? [Graphemes] (start : 0 < room → s.area.x ≤ x ∧ s.area.y ≤ y ∧ y < s.area.bottom)
    (text : String) (style : Style) :
    ∃ t, s.write? x y text room style = some t ∧
      ChangesOnly (Stretch x y (min room (columns text))) s t := by
  have taken : ∀ g ∈ visible text, 0 < g.width := by
    intro g member
    have shown := (List.mem_filter.1 member).2
    rw [Bool.and_eq_true, decide_eq_true_eq] at shown
    exact shown.1
  have cells : ∀ i < min (s.area.right - x) room, s.area.Contains (x + i) y := by
    intro i below
    obtain ⟨left, top, bottom⟩ := start (by omega)
    exact ⟨by omega, by omega, top, bottom⟩
  obtain ⟨t, written, changes⟩ := exists_writeClusters? style cells taken
  refine ⟨t, written, changes.mono ?_⟩
  rintro column line ⟨same, left, right⟩
  exact ⟨same, left, by unfold columns; omega⟩

end

end Screen

end Terminal

namespace Scene

open Terminal

/-- A message changes no cell on other lines or on the left, and none on the right of the area unless it takes more
columns than it has characters and half of the columns left over are too few for the rest. -/
theorem paint?_message_clipped [Graphemes] {α : Type} [Scalar α] (scene : Scene α) {message : String}
    (shown : scene.placeholder = some message) (area : Rect) (s : Screen)
    (within : ∀ x y, area.Contains x y → s.area.Contains x y)
    (line : 0 < area.height ∨ area.width = 0) :
    ∃ painted, scene.paint? area s = some painted ∧
      (∀ x y, ¬ area.Contains x y → painted.get? x y ≠ s.get? x y →
        y = area.y + area.height / 2 ∧ area.right ≤ x ∧
          x < area.x + (area.width - message.length) / 2 +
            min area.width (Screen.columns message)) ∧
      (Screen.columns message ≤ message.length ∨ area.width ≤ message.length ∨
          2 * Screen.columns message ≤ area.width + message.length + 1 →
        ∀ x y, ¬ area.Contains x y → painted.get? x y = s.get? x y) := by
  have inside : 0 < area.width → s.area.x ≤ area.x + (area.width - min message.length area.width) / 2 ∧
      s.area.y ≤ area.y + area.height / 2 ∧ area.y + area.height / 2 < s.area.bottom := by
    intro some_width
    have some_line : 0 < area.height := line.resolve_right some_width.ne'
    have cell : area.Contains area.x (area.y + area.height / 2) := by
      simp only [Rect.Contains, Rect.right, Rect.bottom]
      omega
    obtain ⟨left, -, top, bottom⟩ := within _ _ cell
    exact ⟨left.trans (Nat.le_add_right _ _), top, bottom⟩
  obtain ⟨painted, written, changes⟩ := Screen.exists_write? (s := s.restyle area scene.style)
    (by rwa [Screen.area_restyle]) message scene.style
  have changed : ∀ x y, ¬ area.Contains x y → painted.get? x y ≠ s.get? x y →
      y = area.y + area.height / 2 ∧ area.right ≤ x ∧
        x < area.x + (area.width - message.length) / 2 + min area.width (Screen.columns message) := by
    intro x y outside other
    have stretched : Stretch (area.x + (area.width - min message.length area.width) / 2)
        (area.y + area.height / 2) (min area.width (Screen.columns message)) x y := by
      by_contra elsewhere
      exact other ((changes x y elsewhere).trans (changesOnly_restyle s area scene.style x y outside))
    obtain ⟨same, left, right⟩ := stretched
    simp only [Rect.Contains, Rect.right, Rect.bottom] at outside ⊢
    omega
  refine ⟨painted, ?_, changed, fun fits x y outside => ?_⟩
  · rw [paint?, shown]
    exact written
  · by_contra other
    obtain ⟨-, right, left⟩ := changed x y outside other
    unfold Rect.right at right
    omega

-- A wide character among sixteen leaves room enough.
theorem paint?_message_clipped_wide :
    let _ := Graphemes.ofWidths fun c => if c = '世' then 2 else 1
    let message := "Loading trace 世…"
    let scene : Scene Float := .message ⟨20, 3⟩ Theme.dark.palette message
    let area : Rect := ⟨2, 1, 20, 3⟩
    let s : Screen := .blank ⟨0, 0, 30, 5⟩
    scene.placeholder = some message ∧ (∀ x y, area.Contains x y → s.area.Contains x y) ∧ 0 < area.height ∧
      2 * Screen.columns message ≤ area.width + message.length + 1 ∧
      ∃ painted, scene.paint? area s = some painted ∧ painted.get? 22 2 = s.get? 22 2 := by
  intro _ message scene area s
  have within : ∀ x y, area.Contains x y → s.area.Contains x y := by
    simp only [area, s, Screen.blank, Rect.Contains, Rect.right, Rect.bottom]
    omega
  have fits : 2 * Screen.columns message ≤ area.width + message.length + 1 := by decide +kernel
  obtain ⟨painted, shown, -, outside⟩ := paint?_message_clipped scene rfl area s within (.inl (by decide))
  exact ⟨rfl, within, by decide, fits, painted, shown, outside (.inr (.inr fits)) 22 2 (by decide)⟩

/-- A message is written on the upper edge of an area without lines, and wide characters on the right of an area. -/
theorem paint?_message_outside :
    let _ := Graphemes.ofWidths fun c => if c = '世' ∨ c = '界' then 2 else 1
    let scene (text : String) : Scene Float := .message ⟨8, 1⟩ Theme.dark.palette text
    let s : Screen := .blank ⟨0, 0, 12, 3⟩
    (¬ (⟨1, 1, 8, 0⟩ : Rect).Contains 3 1 ∧
        (((scene "empty").paint? ⟨1, 1, 8, 0⟩ s).bind (·.get? 3 1)) ≠ s.get? 3 1) ∧
      ((scene "empty").paint? ⟨1, 3, 8, 0⟩ s).isNone = true ∧
      ¬ (⟨1, 1, 8, 1⟩ : Rect).Contains 9 1 ∧
        (((scene "世界世界").paint? ⟨1, 1, 8, 1⟩ s).bind (·.get? 9 1)) ≠ s.get? 9 1 := by
  decide +kernel

end Scene

end Waterfall
