import Mathlib.Data.List.Induction
import Mathlib.Logic.Relation
import Waterfall.Proofs.Walk

set_option autoImplicit false

namespace Waterfall.Walk

open Relation (ReflTransGen)

variable {n : Nat} {below : Fin n → List (Fin n)} {placed : List (Place n)} {start i : Fin n}

def Closed (below : Fin n → List (Fin n)) (placed : List (Place n)) : Prop :=
  ∀ p ∈ placed, ∀ c ∈ below p.position, seen placed c = true

-- While a walk goes on, what is not listed yet waits on the stack.
theorem reaches_below_of_step {w w' : Walk n} (h : step below w = some w')
    (reached : ∀ p ∈ w.placed, ∀ c ∈ below p.position, Reaches c w) :
    ∀ p ∈ w'.placed, ∀ c ∈ below p.position, Reaches c w' := by
  intro q listed c child
  obtain ⟨p, rest, -, ⟨-, same⟩ | ⟨-, same⟩⟩ := step_cases h
  · subst same
    exact (reached q listed c child).step h
  · have earlier : q ∈ w.placed → Reaches c w' := fun member => (reached q member c child).step h
    subst same
    obtain rfl | member := List.mem_cons.1 listed
    · cases met : seen (q :: w.placed) c with
      | true => exact .inl met
      | false =>
        exact .inr ⟨⟨c, q.depth + 1⟩, List.mem_append_left _ (mem_fresh.2 ⟨child, met, rfl⟩), rfl⟩
    · exact earlier member

theorem Closed.visit (closed : Closed below placed) (start : Fin n) :
    Closed below (visit below placed start) := by
  unfold Walk.visit
  split
  · exact closed
  · have first : ∀ p ∈ placed, ∀ c ∈ below p.position, Reaches c ⟨placed, [⟨start, 0⟩]⟩ :=
      fun p listed c child => .inl (closed p listed c child)
    have reached := run_keeps (w := ⟨placed, _⟩) (fun w w' => reaches_below_of_step) first
    exact fun p listed c child => (reached p listed c child).resolve_right (by simp)

theorem Closed.foldl_visit (starts : List (Fin n)) (closed : Closed below placed) :
    Closed below (starts.foldl (Walk.visit below) placed) := by
  induction starts generalizing placed with
  | nil => exact closed
  | cons start rest ih => exact ih (closed.visit start)

theorem closed_foldl_visit (starts : List (Fin n)) :
    Closed below (starts.foldl (visit below) []) :=
  Closed.foldl_visit starts (fun _ listed => by cases listed)

theorem forall_of_step {P : Fin n → Prop} (down : ∀ i, P i → ∀ c ∈ below i, P c) {w w' : Walk n}
    (h : step below w = some w') (all : ∀ p, p ∈ w.placed ∨ p ∈ w.pending → P p.position) :
    ∀ p, p ∈ w'.placed ∨ p ∈ w'.pending → P p.position := by
  obtain ⟨p, rest, pending, ⟨-, rfl⟩ | ⟨-, rfl⟩⟩ := step_cases h
  · exact fun q member => all q (member.imp_right fun later => pending ▸ List.mem_cons_of_mem p later)
  · have here : P p.position := all p (.inr (pending ▸ List.mem_cons_self))
    rintro q (listed | waiting)
    · obtain rfl | earlier := List.mem_cons.1 listed
      · exact here
      · exact all q (.inl earlier)
    · obtain first | later := List.mem_append.1 waiting
      · exact down _ here _ (mem_fresh.1 first).1
      · exact all q (.inr (pending ▸ List.mem_cons_of_mem p later))

theorem forall_visit {P : Fin n → Prop} (down : ∀ i, P i → ∀ c ∈ below i, P c)
    (all : ∀ p ∈ placed, P p.position) (here : P start) :
    ∀ p ∈ visit below placed start, P p.position := by
  unfold visit
  split
  · exact all
  · have first : ∀ p, p ∈ placed ∨ p ∈ [⟨start, 0⟩] → P p.position := by
      rintro p (listed | waiting)
      · exact all p listed
      · obtain rfl := List.mem_singleton.1 waiting
        exact here
    have kept := run_keeps (w := ⟨placed, _⟩) (fun w w' => forall_of_step down) first
    exact fun p listed => kept p (.inl listed)

theorem forall_foldl_visit {P : Fin n → Prop} (down : ∀ i, P i → ∀ c ∈ below i, P c)
    {starts : List (Fin n)} (all : ∀ p ∈ placed, P p.position) (each : ∀ s ∈ starts, P s) :
    ∀ p ∈ starts.foldl (visit below) placed, P p.position := by
  induction starts generalizing placed with
  | nil => exact all
  | cons start rest ih =>
    rw [List.forall_mem_cons] at each
    exact ih (forall_visit down all each.1) each.2

theorem seen_foldl_visit_iff {up : Fin n → Fin n → Prop} (links : ∀ i c, c ∈ below i ↔ up c i)
    {starts : List (Fin n)} :
    seen (starts.foldl (visit below) []) i = true ↔ ∃ s ∈ starts, ReflTransGen up i s := by
  constructor
  · intro met
    obtain ⟨p, listed, rfl⟩ := List.mem_map.1 (seen_eq_true_iff.1 met)
    refine forall_foldl_visit (P := fun i => ∃ s ∈ starts, ReflTransGen up i s) ?_ (by simp)
      (fun s member => ⟨s, member, .refl⟩) p listed
    rintro i ⟨s, member, path⟩ c child
    exact ⟨s, member, .head ((links i c).1 child) path⟩
  · rintro ⟨s, member, path⟩
    induction path using ReflTransGen.head_induction_on with
    | refl => exact seen_foldl_visit (.inr member)
    | head link _ ih =>
      obtain ⟨p, listed, rfl⟩ := List.mem_map.1 (seen_eq_true_iff.1 ih)
      exact closed_foldl_visit starts p listed _ ((links _ _).2 link)

theorem inner_of_step {base : List (Place n)} {w w' : Walk n} (h : step below w = some w')
    (deep : (∃ inner, w.placed = inner ++ base ∧ ∀ q ∈ inner, q.depth ≠ 0) ∧
      ∀ q ∈ w.pending, q.depth ≠ 0) :
    (∃ inner, w'.placed = inner ++ base ∧ ∀ q ∈ inner, q.depth ≠ 0) ∧
      ∀ q ∈ w'.pending, q.depth ≠ 0 := by
  obtain ⟨⟨inner, split, inside⟩, waiting⟩ := deep
  obtain ⟨p, rest, pending, ⟨-, rfl⟩ | ⟨-, rfl⟩⟩ := step_cases h <;>
    rw [pending, List.forall_mem_cons] at waiting
  · exact ⟨⟨inner, split, inside⟩, waiting.2⟩
  · refine ⟨⟨p :: inner, by rw [split]; rfl, List.forall_mem_cons.2 ⟨waiting.1, inside⟩⟩, ?_⟩
    refine List.forall_mem_append.2 ⟨fun q first => ?_, waiting.2⟩
    rw [(mem_fresh.1 first).2.2]
    exact Nat.succ_ne_zero _

theorem visit_of_new (new : seen placed start = false) :
    ∃ inner, visit below placed start = inner ++ ⟨start, 0⟩ :: placed ∧ ∀ q ∈ inner, q.depth ≠ 0 := by
  rw [visit, new, if_neg Bool.false_ne_true, run_of_step (step_of_new (p := ⟨start, 0⟩) new)]
  refine (run_keeps (fun w w' => inner_of_step) ?_).1
  refine ⟨⟨[], rfl, by simp⟩, fun q waiting => ?_⟩
  obtain first | later := List.mem_append.1 waiting
  · rw [(mem_fresh.1 first).2.2]
    exact Nat.succ_ne_zero _
  · cases later

theorem visit_of_seen (met : seen placed start = true) : visit below placed start = placed :=
  if_pos met

theorem exists_visit_of_top {starts : List (Fin n)} {p : Place n} {later earlier : List (Place n)}
    (listed : starts.foldl (visit below) [] = later ++ p :: earlier) (top : p.depth = 0) :
    ∃ before after, starts = before ++ p.position :: after ∧
      earlier = before.foldl (visit below) [] := by
  induction starts using List.reverseRecOn generalizing later with
  | nil => simp at listed
  | append_singleton starts s ih =>
    rw [List.foldl_append, List.foldl_cons, List.foldl_nil] at listed
    -- The place was listed by the visits before, which are fewer.
    have inherit {later' : List (Place n)}
        (listed : starts.foldl (visit below) [] = later' ++ p :: earlier) :
        ∃ before after, starts ++ [s] = before ++ p.position :: after ∧
          earlier = before.foldl (visit below) [] := by
      obtain ⟨before, after, rfl, rest⟩ := ih listed
      exact ⟨before, after ++ [s], by simp, rest⟩
    cases met : seen (starts.foldl (visit below) []) s with
    | true =>
      rw [visit_of_seen met] at listed
      exact inherit listed
    | false =>
      obtain ⟨inner, visited, deep⟩ := @visit_of_new _ below _ s met
      rw [visited] at listed
      obtain ⟨between, rfl, split⟩ | ⟨between, rfl, split⟩ := List.append_eq_append_iff.1 listed
      · cases between with
        | nil =>
          cases split
          exact ⟨starts, [], rfl, rfl⟩
        | cons q between => exact inherit (List.cons.inj split).2
      · cases between with
        | nil =>
          cases split
          exact ⟨starts, [], rfl, rfl⟩
        | cons q between =>
          cases split
          exact absurd top (deep p (by simp))

end Waterfall.Walk
