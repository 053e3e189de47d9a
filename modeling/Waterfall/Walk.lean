set_option autoImplicit false

namespace Waterfall

structure Place (n : Nat) where
  position : Fin n
  depth : Nat
  deriving DecidableEq

/-- What is placed, the last one first, and what is still to be placed, the next one first. -/
structure Walk (n : Nat) where
  placed : List (Place n)
  pending : List (Place n)

namespace Walk

variable {n : Nat}

def seen (placed : List (Place n)) (position : Fin n) : Bool :=
  placed.any (·.position = position)

def fresh (below : Fin n → List (Fin n)) (placed : List (Place n)) (p : Place n) : List (Place n) :=
  ((below p.position).filter fun i => !seen placed i).map fun i => ⟨i, p.depth + 1⟩

-- Takes the next place from the stack. Unless its position was met before it is placed, and what is
-- below it goes on top of the stack.
def step (below : Fin n → List (Fin n)) (w : Walk n) : Option (Walk n) :=
  match w.pending with
  | [] => none
  | p :: rest =>
    if seen w.placed p.position then some ⟨w.placed, rest⟩
    else some ⟨p :: w.placed, fresh below (p :: w.placed) p ++ rest⟩

def unseen (placed : List (Place n)) : Nat :=
  (List.finRange n).countP fun i => !seen placed i

@[simp] theorem seen_cons (p : Place n) (placed : List (Place n)) (i : Fin n) :
    seen (p :: placed) i = (decide (p.position = i) || seen placed i) := rfl

theorem step_cases {below : Fin n → List (Fin n)} {w w' : Walk n} (h : step below w = some w') :
    ∃ p rest, w.pending = p :: rest ∧
      (seen w.placed p.position = true ∧ w' = ⟨w.placed, rest⟩ ∨
        seen w.placed p.position = false ∧
          w' = ⟨p :: w.placed, fresh below (p :: w.placed) p ++ rest⟩) := by
  unfold step at h
  split at h
  · cases h
  · next p rest pending =>
    refine ⟨p, rest, pending, ?_⟩
    split at h
    · next met => exact .inl ⟨met, by simpa using h.symm⟩
    · next new => exact .inr ⟨by simpa using new, by simpa using h.symm⟩

theorem unseen_cons_lt {placed : List (Place n)} {p : Place n}
    (new : seen placed p.position = false) : unseen (p :: placed) < unseen placed := by
  obtain ⟨before, after, split⟩ := List.append_of_mem (List.mem_finRange p.position)
  have fewer (l : List (Fin n)) :
      l.countP (fun i => !seen (p :: placed) i) ≤ l.countP (fun i => !seen placed i) := by
    apply List.countP_mono_left
    simp
  have left := fewer before
  have right := fewer after
  simp only [unseen, split, List.countP_append, List.countP_cons]
  simp only [seen_cons, new, decide_true, Bool.true_or, Bool.not_true, Bool.not_false,
    if_true] at left right ⊢
  simp only [Bool.false_eq_true, if_false]
  omega

def run (below : Fin n → List (Fin n)) (w : Walk n) : List (Place n) :=
  match _taken : step below w with
  | none => w.placed
  | some w' => run below w'
termination_by (unseen w.placed, w.pending.length)
decreasing_by
  obtain ⟨p, rest, pending, ⟨-, rfl⟩ | ⟨new, rfl⟩⟩ := step_cases _taken
  · simp only [pending, List.length_cons]
    exact Prod.Lex.right _ (Nat.lt_succ_self _)
  · exact Prod.Lex.left _ _ (unseen_cons_lt new)

def visit (below : Fin n → List (Fin n)) (placed : List (Place n)) (start : Fin n) : List (Place n) :=
  if seen placed start then placed else run below ⟨placed, [⟨start, 0⟩]⟩

end Walk

end Waterfall
