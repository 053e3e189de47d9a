import Mathlib.Data.List.Nodup
import Waterfall.Walk

set_option autoImplicit false

namespace Waterfall.Walk

variable {n : Nat} {below : Fin n → List (Fin n)} {up : Fin n → Fin n → Prop}

theorem seen_eq_true_iff {placed : List (Place n)} {i : Fin n} :
    seen placed i = true ↔ i ∈ placed.map (·.position) := by
  simp [seen]

theorem seen_eq_false_iff {placed : List (Place n)} {i : Fin n} :
    seen placed i = false ↔ i ∉ placed.map (·.position) := by
  rw [← seen_eq_true_iff, Bool.not_eq_true]

theorem mem_fresh {placed : List (Place n)} {p q : Place n} :
    q ∈ fresh below placed p ↔
      q.position ∈ below p.position ∧ seen placed q.position = false ∧ q.depth = p.depth + 1 := by
  obtain ⟨i, d⟩ := q
  simp only [fresh, List.mem_map, List.mem_filter, Bool.not_eq_true', Place.mk.injEq]
  constructor
  · rintro ⟨i, ⟨child, new⟩, rfl, rfl⟩
    exact ⟨child, new, rfl⟩
  · rintro ⟨child, new, rfl⟩
    exact ⟨i, ⟨child, new⟩, rfl, rfl⟩

theorem run_of_step {w w' : Walk n} (h : step below w = some w') : run below w = run below w' := by
  rw [run]
  split
  · next done => rw [h] at done; cases done
  · next v taken => rw [h] at taken; cases taken; rfl

theorem run_done (placed : List (Place n)) : run below ⟨placed, []⟩ = placed := by
  rw [run]
  rfl

theorem step_of_new {placed rest : List (Place n)} {p : Place n}
    (new : seen placed p.position = false) :
    step below ⟨placed, p :: rest⟩ =
      some ⟨p :: placed, fresh below (p :: placed) p ++ rest⟩ := by
  simp [step, new]

-- What every step keeps holds at the end, when nothing is pending.
theorem run_keeps {Inv : Walk n → Prop}
    (kept : ∀ w w', step below w = some w' → Inv w → Inv w') {w : Walk n} (start : Inv w) :
    Inv ⟨run below w, []⟩ := by
  induction w using run.induct below with
  | case1 w done =>
    obtain ⟨placed, pending⟩ := w
    cases pending with
    | nil => rwa [run_done]
    | cons p rest =>
      simp only [step] at done
      split at done <;> cases done
  | case2 w w' taken ih =>
    rw [run_of_step taken]
    exact ih (kept w w' taken start)

def Reaches (i : Fin n) (w : Walk n) : Prop :=
  seen w.placed i = true ∨ ∃ p ∈ w.pending, p.position = i

theorem Reaches.step {i : Fin n} {w w' : Walk n} (h : Walk.step below w = some w')
    (reaches : Reaches i w) : Reaches i w' := by
  obtain ⟨p, rest, pending, ⟨met, rfl⟩ | ⟨-, rfl⟩⟩ := step_cases h
  · obtain listed | ⟨q, member, rfl⟩ := reaches
    · exact .inl listed
    · rw [pending, List.mem_cons] at member
      obtain rfl | later := member
      · exact .inl met
      · exact .inr ⟨q, later, rfl⟩
  · obtain listed | ⟨q, member, rfl⟩ := reaches
    · exact .inl (by simp [listed])
    · rw [pending, List.mem_cons] at member
      obtain rfl | later := member
      · exact .inl (by simp)
      · exact .inr ⟨q, List.mem_append_right _ later, rfl⟩

theorem Reaches.run {i : Fin n} {w : Walk n} (reaches : Reaches i w) :
    seen (run below w) i = true := by
  have kept (w w' : Walk n) (h : Walk.step below w = some w') (reaches : Reaches i w) :
      Reaches i w' := reaches.step h
  have listed := run_keeps kept reaches
  simpa [Reaches] using listed

theorem seen_visit {placed : List (Place n)} {start i : Fin n}
    (h : seen placed i = true ∨ start = i) : seen (visit below placed start) i = true := by
  unfold visit
  split
  · next met => rcases h with listed | rfl <;> assumption
  · exact Reaches.run (h.imp id fun same => ⟨⟨start, 0⟩, by simp, same⟩)

theorem seen_foldl_visit {starts : List (Fin n)} {placed : List (Place n)} {i : Fin n}
    (h : seen placed i = true ∨ i ∈ starts) :
    seen (starts.foldl (visit below) placed) i = true := by
  induction starts generalizing placed with
  | nil => simpa using h
  | cons start rest ih =>
    apply ih
    rw [List.mem_cons] at h
    obtain listed | rfl | later := h
    · exact .inl (seen_visit (.inl listed))
    · exact .inl (seen_visit (.inr rfl))
    · exact .inr later

/-- A place that may be listed next: it lies at the top, or one level below a place from which it
hangs and after which only deeper places are listed. -/
def Hangs (up : Fin n → Fin n → Prop) (placed : List (Place n)) (p : Place n) : Prop :=
  p.depth = 0 ∨ ∃ between upper earlier, placed = between ++ upper :: earlier ∧
    up p.position upper.position ∧ p.depth = upper.depth + 1 ∧ ∀ q ∈ between, upper.depth < q.depth

def Nested (up : Fin n → Fin n → Prop) : List (Place n) → Prop
  | [] => True
  | p :: placed => seen placed p.position = false ∧ Hangs up placed p ∧ Nested up placed

theorem Hangs.cons {placed : List (Place n)} {p q : Place n} (hangs : Hangs up placed q)
    (deeper : q.depth ≤ p.depth) : Hangs up (p :: placed) q := by
  obtain top | ⟨between, upper, earlier, rfl, link, depth, inside⟩ := hangs
  · exact .inl top
  · refine .inr ⟨p :: between, upper, earlier, rfl, link, depth, ?_⟩
    intro r member
    rw [List.mem_cons] at member
    obtain rfl | member := member
    · omega
    · exact inside r member

/-- The invariant of a walk. The stack holds the deepest places on top, so listing one of them keeps
open the places from which the others hang. -/
structure Sound (up : Fin n → Fin n → Prop) (w : Walk n) : Prop where
  nested : Nested up w.placed
  hangs : ∀ p ∈ w.pending, Hangs up w.placed p
  deepest_first : w.pending.Pairwise fun p q => q.depth ≤ p.depth

theorem Sound.step (links : ∀ i, ∀ c ∈ below i, up c i) {w w' : Walk n} (sound : Sound up w)
    (h : step below w = some w') : Sound up w' := by
  obtain ⟨p, rest, pending, ⟨-, rfl⟩ | ⟨new, rfl⟩⟩ := step_cases h
  · have order := sound.deepest_first
    rw [pending, List.pairwise_cons] at order
    exact ⟨sound.nested, fun q later => sound.hangs q (by simp [pending, later]), order.2⟩
  · have order := sound.deepest_first
    rw [pending, List.pairwise_cons] at order
    refine ⟨⟨new, sound.hangs p (by simp [pending]), sound.nested⟩, ?_, ?_⟩
    · intro q member
      rw [List.mem_append] at member
      obtain first | later := member
      · obtain ⟨child, -, depth⟩ := mem_fresh.1 first
        exact .inr ⟨[], p, w.placed, rfl, links _ _ child, depth, by simp⟩
      · -- What was pending below `p` is no deeper, so listing `p` closes nothing it hangs from.
        exact (sound.hangs q (by simp [pending, later])).cons (order.1 q later)
    · rw [List.pairwise_append]
      refine ⟨?_, order.2, ?_⟩
      · rw [List.pairwise_iff_forall_sublist]
        intro a b pair
        have da := (mem_fresh.1 (pair.mem (by simp : a ∈ [a, b]))).2.2
        have db := (mem_fresh.1 (pair.mem (by simp : b ∈ [a, b]))).2.2
        omega
      · intro a first b later
        have da := (mem_fresh.1 first).2.2
        have db := order.1 b later
        omega

theorem Nested.visit (links : ∀ i, ∀ c ∈ below i, up c i) {placed : List (Place n)}
    (nested : Nested up placed) (start : Fin n) : Nested up (visit below placed start) := by
  unfold Walk.visit
  split
  · exact nested
  · have sound : Sound up ⟨placed, [⟨start, 0⟩]⟩ :=
      ⟨nested, by simp [Hangs], List.pairwise_singleton _ _⟩
    exact (run_keeps (fun _ _ h sound => Sound.step links sound h) sound).nested

theorem Nested.foldl_visit (links : ∀ i, ∀ c ∈ below i, up c i) (starts : List (Fin n))
    {placed : List (Place n)} (nested : Nested up placed) :
    Nested up (starts.foldl (Walk.visit below) placed) := by
  induction starts generalizing placed with
  | nil => exact nested
  | cons start rest ih => exact ih (nested.visit links start)

theorem Nested.nodup {placed : List (Place n)} (nested : Nested up placed) :
    (placed.map (·.position)).Nodup := by
  induction placed with
  | nil => exact .nil
  | cons p placed ih => exact List.nodup_cons.2 ⟨seen_eq_false_iff.1 nested.1, ih nested.2.2⟩

-- Where no position is listed twice, a position tells its index.
theorem index_of_position {l : List (Place n)} (nodup : (l.map (·.position)).Nodup) {j k : Nat}
    {p q : Place n} (hp : l[j]? = some p) (hq : l[k]? = some q) (same : p.position = q.position) :
    j = k := by
  refine (List.getElem?_inj ?_ nodup).1 ?_
  · simpa using (List.getElem?_eq_some_iff.1 hp).1
  · simp [hp, hq, same]

-- The invariant, read off the finished list.
theorem Nested.listed {placed : List (Place n)} (nested : Nested up placed) {k : Nat} {p : Place n}
    (h : placed.reverse[k]? = some p) :
    p.depth = 0 ∨ ∃ j upper, j < k ∧ placed.reverse[j]? = some upper ∧
      up p.position upper.position ∧ p.depth = upper.depth + 1 ∧
      ∀ m q, j < m → m < k → placed.reverse[m]? = some q → upper.depth < q.depth := by
  induction placed with
  | nil => simp at h
  | cons last placed ih =>
    obtain ⟨-, hangs, nested⟩ := nested
    simp only [List.reverse_cons] at h ⊢
    by_cases before : k < placed.reverse.length
    · rw [List.getElem?_append_left before] at h
      obtain top | ⟨j, upper, earlier, found, link, depth, inside⟩ := ih nested h
      · exact .inl top
      · refine .inr ⟨j, upper, earlier, ?_, link, depth, ?_⟩
        · rwa [List.getElem?_append_left (by omega)]
        · intro m q after until_k member
          rw [List.getElem?_append_left (by omega)] at member
          exact inside m q after until_k member
    · rw [List.getElem?_append_right (by omega)] at h
      obtain ⟨rfl, rfl⟩ : k = placed.reverse.length ∧ last = p := by
        rw [List.getElem?_singleton] at h
        split at h
        · cases h
          exact ⟨by omega, rfl⟩
        · cases h
      obtain top | ⟨between, upper, earlier, rfl, link, depth, inside⟩ := hangs
      · exact .inl top
      · refine .inr ⟨earlier.length, upper, by simp, by simp, link, depth, ?_⟩
        intro m q after until_k member
        rw [List.getElem?_append_left until_k] at member
        have shape : (between ++ upper :: earlier).reverse =
            (earlier.reverse ++ [upper]) ++ between.reverse := by simp
        rw [shape, List.getElem?_append_right (by simp; omega)] at member
        exact inside q (List.mem_reverse.1 (List.mem_of_getElem? member))

end Waterfall.Walk
