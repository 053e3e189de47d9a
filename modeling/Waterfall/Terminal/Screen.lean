import Waterfall.Terminal.Rect
import Waterfall.Terminal.Style
import Waterfall.Text.Graphemes

set_option autoImplicit false

namespace Waterfall

namespace Terminal

structure Screen where
  area : Rect
  cells : Array Cell

namespace Screen

def blank (area : Rect) : Screen :=
  ⟨area, .replicate (area.width * area.height) {}⟩

def index (s : Screen) (x y : Nat) : Nat :=
  (y - s.area.y) * s.area.width + (x - s.area.x)

def get? (s : Screen) (x y : Nat) : Option Cell :=
  if s.area.Contains x y then s.cells[s.index x y]? else none

def modify (s : Screen) (x y : Nat) (f : Cell → Cell) : Screen :=
  if s.area.Contains x y then { s with cells := s.cells.modify (s.index x y) f } else s

@[simp] theorem area_modify (s : Screen) (x y : Nat) (f : Cell → Cell) :
    (s.modify x y f).area = s.area := by
  unfold modify
  split <;> rfl

theorem index_inj {s : Screen} {x y x' y' : Nat} (h : s.area.Contains x y)
    (h' : s.area.Contains x' y') : s.index x y = s.index x' y' ↔ x = x' ∧ y = y' := by
  simp only [Rect.Contains, Rect.right, Rect.bottom] at h h'
  constructor
  · intro e
    simp only [index] at e
    generalize hi : x - s.area.x = i at e
    generalize hi' : x' - s.area.x = i' at e
    generalize hj : y - s.area.y = j at e
    generalize hj' : y' - s.area.y = j' at e
    have hw : i < s.area.width := by omega
    have hw' : i' < s.area.width := by omega
    have hj2 : j = j' := by
      have a := congrArg (· / s.area.width) e
      simpa [Nat.mul_comm _ s.area.width, Nat.mul_add_div (by omega : 0 < s.area.width),
        Nat.div_eq_of_lt hw, Nat.div_eq_of_lt hw'] using a
    subst hj2
    omega
  · rintro ⟨rfl, rfl⟩
    rfl

theorem get?_modify (s : Screen) (x y : Nat) (f : Cell → Cell) (x' y' : Nat) :
    (s.modify x y f).get? x' y' =
      if x' = x ∧ y' = y then (s.get? x' y').map f else s.get? x' y' := by
  unfold modify get?
  by_cases h : s.area.Contains x y
  · simp only [h, if_true]
    by_cases h' : s.area.Contains x' y'
    · simp only [h', if_true, index, Array.getElem?_modify]
      have e := index_inj h h'
      simp only [index] at e
      split
      · next hi =>
        obtain ⟨rfl, rfl⟩ := e.1 hi
        simp
      · next hi =>
        split
        · next hc => exact (hi (e.2 ⟨hc.1.symm, hc.2.symm⟩)).elim
        · rfl
    · simp [h']
  · by_cases hc : x' = x ∧ y' = y
    · obtain ⟨rfl, rfl⟩ := hc
      simp [h]
    · simp [h, hc]

def modifyArea (s : Screen) (area : Rect) (f : Cell → Cell) : Screen :=
  (area.intersect s.area).points.foldl (fun s (x, y) => s.modify x y f) s

def restyle (s : Screen) (area : Rect) (style : Style) : Screen :=
  s.modifyArea area (·.styled style)

def clear (s : Screen) (area : Rect) : Screen :=
  s.modifyArea area fun _ => {}

def put (s : Screen) (x y : Nat) (symbol : String) (style : Style) : Screen :=
  s.modify x y (·.showing symbol style)

theorem get?_put (s : Screen) (x y : Nat) (symbol : String) (style : Style) (x' y' : Nat) :
    (s.put x y symbol style).get? x' y' =
      if x' = x ∧ y' = y then (s.get? x' y').map (·.showing symbol style) else s.get? x' y' :=
  get?_modify s x y _ x' y'

def putCluster (s : Screen) (x y : Nat) (g : Cluster) (style : Style) : Screen :=
  (List.range (g.width - 1)).foldl (fun s i => s.modify (x + 1 + i) y fun _ => {})
    (s.put x y g.text style)

def writeClusters? (s : Screen) (x y room : Nat) (style : Style) : List Cluster → Option Screen
  | [] => some s
  | g :: rest =>
    if room < g.width then some s
    else if s.area.Contains x y then
      (s.putCluster x y g style).writeClusters? (x + g.width) y (room - g.width) style rest
    else none

def visible [Graphemes] (text : String) : List Cluster :=
  (Cluster.ofText text).filter fun g => 0 < g.width && !g.text.toList.any isControl

def write? [Graphemes] (s : Screen) (x y : Nat) (text : String) (room : Nat) (style : Style) :
    Option Screen :=
  s.writeClusters? x y (min (s.area.right - x) room) style (visible text)

def rows (s : Screen) : List (List Cell) :=
  (List.range s.area.height).map fun j =>
    (s.cells.extract (j * s.area.width) ((j + 1) * s.area.width)).toList

end Screen

end Terminal

end Waterfall
