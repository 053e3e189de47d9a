import Waterfall.Proofs.Double.Parts
import Waterfall.Proofs.Painting

set_option autoImplicit false

namespace Waterfall

namespace Terminal

def Alike (cells : ℕ → ℕ → Prop) (s t : Screen) : Prop :=
  ∀ x y, cells x y → s.get? x y = t.get? x y

section

variable {P Q : ℕ → ℕ → Prop} {s t u v : Screen}

theorem Alike.refl (s : Screen) : Alike P s s :=
  fun _ _ _ => rfl

theorem Alike.foldl {β : Type} {f : Screen → β → Screen}
    (step : ∀ s t b, Alike P s t → Alike P (f s b) (f t b)) (alike : Alike P s t) (l : List β) :
    Alike P (l.foldl f s) (l.foldl f t) := by
  induction l generalizing s t with
  | nil => exact alike
  | cons b rest ih => exact ih (step s t b alike)

theorem changesOnly_points (f : Cell → Cell) (points : List (ℕ × ℕ)) (s : Screen) :
    ChangesOnly (fun x y => (x, y) ∈ points) s
      (points.foldl (fun s (x, y) => s.modify x y f) s) := by
  induction points generalizing s with
  | nil => exact .refl s
  | cons p rest ih =>
    have first : ChangesOnly (fun x y => (x, y) ∈ p :: rest) s (s.modify p.1 p.2 f) := by
      intro x y outside
      have other : ¬ (x = p.1 ∧ y = p.2) := fun same => outside (by simp [same.1, same.2])
      simp [Screen.get?_modify, other]
    exact first.trans ((ih _).mono fun x y later => List.mem_cons_of_mem p later)

theorem changesOnly_restyle (s : Screen) (area : Rect) (style : Style) :
    ChangesOnly area.Contains s (s.restyle area style) := by
  refine (changesOnly_points (·.styled style) _ s).mono fun x y listed => ?_
  exact (Rect.contains_intersect.1 (Rect.mem_points.1 listed)).1

end

namespace Layer

def Band {α : Type} (l : Layer α) (column line : ℕ) : Prop :=
  l.area.x ≤ column ∧ column < l.area.right ∧ l.area.y + l.top ≤ line ∧ line < l.area.y + l.bottom

theorem Band.contains {α : Type} {l : Layer α} {column line : ℕ} (band : l.Band column line)
    (top : 0 ≤ l.top) (bottom : l.bottom ≤ l.area.height) : l.area.Contains column line := by
  simp only [Band, Rect.Contains, Rect.bottom] at *
  omega

variable {α : Type} [Scalar α] {l : Layer α} {column line : ℕ}

variable {P : ℕ → ℕ → Prop} {s t : Screen}

end Layer

end Terminal

namespace Scene

open Terminal

variable {α : Type} [Scalar α] {scene : Scene α}

end Scene

end Waterfall
