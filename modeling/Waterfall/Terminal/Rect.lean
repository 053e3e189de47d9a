set_option autoImplicit false

namespace Waterfall

namespace Terminal

structure Rect where
  x : Nat := 0
  y : Nat := 0
  width : Nat := 0
  height : Nat := 0
  deriving DecidableEq, Inhabited

namespace Rect

def right (r : Rect) : Nat := r.x + r.width

def bottom (r : Rect) : Nat := r.y + r.height

def isEmpty (r : Rect) : Bool :=
  r.width = 0 || r.height = 0

def Contains (r : Rect) (x y : Nat) : Prop :=
  r.x ≤ x ∧ x < r.right ∧ r.y ≤ y ∧ y < r.bottom

instance (r : Rect) (x y : Nat) : Decidable (r.Contains x y) :=
  inferInstanceAs (Decidable (_ ∧ _ ∧ _ ∧ _))

def intersect (r s : Rect) : Rect :=
  let x := max r.x s.x
  let y := max r.y s.y
  ⟨x, y, min r.right s.right - x, min r.bottom s.bottom - y⟩

theorem contains_intersect {r s : Rect} {x y : Nat} :
    (r.intersect s).Contains x y ↔ r.Contains x y ∧ s.Contains x y := by
  simp only [Contains, intersect, right, bottom]
  omega

def inner (r : Rect) : Rect where
  x := min (r.x + 1) r.right
  y := min (r.y + 1) r.bottom
  width := r.width - 2
  height := r.height - 2

def points (r : Rect) : List (Nat × Nat) :=
  (List.range r.height).flatMap fun j => (List.range r.width).map fun i => (r.x + i, r.y + j)

theorem mem_points {r : Rect} {x y : Nat} : (x, y) ∈ r.points ↔ r.Contains x y := by
  simp only [points, List.mem_flatMap, List.mem_range, List.mem_map, Prod.mk.injEq, Contains, right,
    bottom]
  constructor
  · rintro ⟨j, hj, i, hi, rfl, rfl⟩
    omega
  · intro h
    exact ⟨y - r.y, by omega, x - r.x, by omega, by omega, by omega⟩

end Rect

end Terminal

end Waterfall
