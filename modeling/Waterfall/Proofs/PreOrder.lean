import Mathlib.Data.List.Sort
import Waterfall.Proofs.Forest

set_option autoImplicit false

namespace Waterfall.Forest

open Walk (seen step run visit)

variable {n : Nat} {up : Fin n → Fin n → Prop} {depth : Fin n → Nat}

/-- Every position below the top comes after the one above it, one level deeper, and only deeper ones
stand between them. One at the top comes before the one above it, if there is one. -/
structure InOrder (up : Fin n → Fin n → Prop) (depth : Fin n → Nat) : Prop where
  unique : Relator.RightUnique up
  hangs : ∀ i, depth i ≠ 0 →
    ∃ j < i, up i j ∧ depth i = depth j + 1 ∧ ∀ k, j < k → k < i → depth j < depth k
  before : ∀ {i j}, up i j → depth i = 0 → i < j

theorem InOrder.after (order : InOrder up depth) {i j : Fin n} (link : up i j) (deep : depth i ≠ 0) :
    j < i ∧ depth i = depth j + 1 ∧ ∀ k, j < k → k < i → depth j < depth k := by
  obtain ⟨j', earlier, link', rest⟩ := order.hangs i deep
  obtain rfl := order.unique link link'
  exact ⟨earlier, rest⟩

variable [DecidableRel up]

-- The stack of a walk that has listed all positions before `t`.
def frontier (up : Fin n → Fin n → Prop) [DecidableRel up] (depth : Fin n → Nat) (t : Nat) :
    List (Fin n) :=
  (List.finRange n).filter fun i => t ≤ i.val ∧ depth i ≠ 0 ∧ ∀ j, up i j → j.val < t

def listing (depth : Fin n → Nat) (positions : List (Fin n)) : List (Place n) :=
  positions.map fun i => ⟨i, depth i⟩

theorem listing_cons (i : Fin n) (l : List (Fin n)) :
    listing depth (i :: l) = ⟨i, depth i⟩ :: listing depth l := rfl

theorem listing_append (l l' : List (Fin n)) :
    listing depth (l ++ l') = listing depth l ++ listing depth l' :=
  List.map_append

theorem mem_frontier {t : Nat} {i : Fin n} :
    i ∈ frontier up depth t ↔ t ≤ i.val ∧ depth i ≠ 0 ∧ ∀ j, up i j → j.val < t := by
  simp [frontier]

theorem frontier_sorted (t : Nat) : (frontier up depth t).Pairwise (· < ·) :=
  (List.pairwise_lt_finRange n).filter _

theorem mem_take_finRange {t : Nat} {i : Fin n} : i ∈ (List.finRange n).take t ↔ i.val < t := by
  simp only [List.mem_take_iff_getElem, List.getElem_finRange]
  constructor
  · rintro ⟨k, inside, rfl⟩
    exact (Nat.lt_min.1 inside).1
  · intro inside
    exact ⟨i, by simp [inside], rfl⟩

theorem seen_listing {l : List (Fin n)} {i : Fin n} :
    seen (listing depth l).reverse i = decide (i ∈ l) := by
  rw [Bool.eq_iff_iff, Walk.seen_eq_true_iff, decide_eq_true_eq, List.map_reverse, List.mem_reverse,
    listing, List.map_map]
  exact List.mem_map.trans (by simp)

theorem seen_take {t : Nat} {i : Fin n} :
    seen (listing depth ((List.finRange n).take t)).reverse i = decide (i.val < t) := by
  rw [seen_listing]
  exact decide_eq_decide.2 mem_take_finRange

variable (order : InOrder up depth)

include order

-- Nothing waits when a position at the top is next.
theorem frontier_of_top {t : Fin n} (top : depth t = 0) : frontier up depth t = [] := by
  refine List.eq_nil_iff_forall_not_mem.2 fun i member => ?_
  obtain ⟨le, deep, links⟩ := mem_frontier.1 member
  obtain ⟨j, -, link, -, between⟩ := order.hangs i deep
  obtain same | less := eq_or_lt_of_le (Fin.le_def.2 le)
  · exact deep (same ▸ top)
  · exact absurd (between t (links j link) less) (by omega)

theorem frontier_eq_cons {t : Fin n} (deep : depth t ≠ 0) :
    frontier up depth t = t :: (frontier up depth t).filter (t < ·) := by
  refine (frontier_sorted _).eq_of_mem_iff ?_ fun i => ?_
  · rw [List.pairwise_cons]
    exact ⟨by simp, (frontier_sorted _).filter _⟩
  · rw [List.mem_cons, List.mem_filter, mem_frontier, decide_eq_true_eq]
    constructor
    · rintro ⟨le, links⟩
      obtain same | less := eq_or_lt_of_le (Fin.le_def.2 le)
      · exact .inl same.symm
      · exact .inr ⟨⟨le, links⟩, less⟩
    · rintro (rfl | ⟨member, -⟩)
      · exact ⟨le_rfl, deep, fun j link => (order.after link deep).1⟩
      · exact member

-- What is below a position comes before what was waiting when the position was listed.
theorem below_append (t : Fin n) :
    (below up t).filter (t < ·) ++ (frontier up depth t).filter (t < ·) =
      frontier up depth (t + 1) := by
  have deep_of_after {c : Fin n} (child : up c t) (after : t < c) : depth c ≠ 0 :=
    fun top => lt_asymm after (order.before child top)
  refine List.Pairwise.eq_of_mem_iff ?_ (frontier_sorted _) fun i => ?_
  · refine List.pairwise_append.2 ⟨((List.pairwise_lt_finRange n).filter _).filter _,
      (frontier_sorted _).filter _, ?_⟩
    intro c child i waiting
    rw [List.mem_filter, mem_below, decide_eq_true_eq] at child
    rw [List.mem_filter, mem_frontier, decide_eq_true_eq] at waiting
    obtain ⟨child, after_c⟩ := child
    obtain ⟨⟨-, deep, links⟩, after⟩ := waiting
    obtain ⟨j, -, link, deeper, between⟩ := order.hangs i deep
    have j_before := Fin.lt_def.2 (links j link)
    by_contra not_before
    obtain same | inside := eq_or_lt_of_le (not_lt.1 not_before)
    · exact j_before.ne (order.unique link (same ▸ child))
    · -- Each of the two would be deeper than what is above the other.
      have := (order.after child (deep_of_after child after_c)).2.2 i after inside
      have := between t j_before after
      omega
  · rw [List.mem_append, List.mem_filter, List.mem_filter, mem_below, mem_frontier, mem_frontier,
      decide_eq_true_eq]
    constructor
    · rintro (⟨child, after⟩ | ⟨⟨-, deep, links⟩, after⟩)
      · refine ⟨after, deep_of_after child after, fun j link => ?_⟩
        rw [order.unique link child]
        omega
      · exact ⟨after, deep, fun j link => (links j link).trans (Nat.lt_succ_self _)⟩
    · rintro ⟨after, deep, links⟩
      by_cases child : up i t
      · exact .inl ⟨child, after⟩
      · refine .inr ⟨⟨by omega, deep, fun j link => ?_⟩, after⟩
        have := links j link
        have : j.val ≠ t.val := fun same => child (Fin.ext same ▸ link)
        omega

theorem step_listing (t : Fin n) :
    step (below up) ⟨(listing depth ((List.finRange n).take t)).reverse,
        ⟨t, depth t⟩ :: listing depth ((frontier up depth t).filter (t < ·))⟩ =
      some ⟨(listing depth ((List.finRange n).take (t + 1))).reverse,
        listing depth (frontier up depth (t + 1))⟩ := by
  have placed : (listing depth ((List.finRange n).take (t + 1))).reverse =
      ⟨t, depth t⟩ :: (listing depth ((List.finRange n).take t)).reverse := by
    rw [List.take_succ_eq_append_getElem (by simp), listing_append, List.reverse_append,
      List.getElem_finRange]
    rfl
  -- Of what is below `t`, all that is at the top is listed already.
  have fresh : Walk.fresh (below up)
      (listing depth ((List.finRange n).take (t + 1))).reverse ⟨t, depth t⟩ =
        listing depth ((below up t).filter (t < ·)) := by
    have unseen (c : Fin n) :
        (!seen (listing depth ((List.finRange n).take (t + 1))).reverse c) = decide (t < c) := by
      rw [seen_take, ← decide_not]
      exact decide_eq_decide.2 (by omega)
    rw [Walk.fresh, List.filter_congr fun c _ => unseen c]
    refine List.map_congr_left fun c child => ?_
    rw [List.mem_filter, mem_below, decide_eq_true_eq] at child
    obtain ⟨child, after⟩ := child
    have deep : depth c ≠ 0 := fun top => lt_asymm after (order.before child top)
    rw [(order.after child deep).2.1]
  have new : seen (listing depth ((List.finRange n).take t)).reverse t = false := by
    rw [seen_take, decide_eq_false_iff_not]
    exact lt_irrefl _
  rw [Walk.step_of_new new, ← placed, fresh, ← listing_append, below_append order t]

theorem run_listing {t : Nat} (le : t ≤ n) :
    ∃ u, t ≤ u ∧ u ≤ n ∧ (∀ i : Fin n, i.val = u → depth i = 0) ∧
      (∀ i : Fin n, t ≤ i.val → i.val < u → depth i ≠ 0) ∧
      run (below up) ⟨(listing depth ((List.finRange n).take t)).reverse,
        listing depth (frontier up depth t)⟩ = (listing depth ((List.finRange n).take u)).reverse := by
  -- Downwards from the end, since a step leads from one frontier to the next.
  induction le using Nat.decreasingInduction with
  | self =>
    have nothing : frontier up depth n = [] :=
      List.eq_nil_iff_forall_not_mem.2 fun i member => by
        have := (mem_frontier.1 member).1
        omega
    refine ⟨n, le_rfl, le_rfl, by omega, by omega, ?_⟩
    rw [nothing]
    exact Walk.run_done _
  | of_succ t less ih =>
    by_cases top : depth ⟨t, less⟩ = 0
    · refine ⟨t, le_rfl, less.le, fun i same => (Fin.ext same : i = ⟨t, less⟩) ▸ top, by omega, ?_⟩
      rw [frontier_of_top order top]
      exact Walk.run_done _
    · obtain ⟨u, after, inside, tops, deep, ran⟩ := ih
      refine ⟨u, by omega, inside, tops, fun i from_t before => ?_, ?_⟩
      · obtain same | later := eq_or_lt_of_le from_t
        · exact (Fin.ext same.symm : i = ⟨t, less⟩) ▸ top
        · exact deep i later before
      · have stack := frontier_eq_cons order top
        rw [stack, listing_cons, Walk.run_of_step (step_listing order ⟨t, less⟩)]
        exact ran

theorem visit_listing {t : Fin n} (top : depth t = 0) :
    ∃ u : Nat, t.val < u ∧ u ≤ n ∧ (∀ i : Fin n, i.val = u → depth i = 0) ∧
      (∀ i : Fin n, t < i → i.val < u → depth i ≠ 0) ∧
      visit (below up) (listing depth ((List.finRange n).take t)).reverse t =
        (listing depth ((List.finRange n).take u)).reverse := by
  obtain ⟨u, after, inside, tops, deep, ran⟩ := run_listing order (t := t + 1) t.isLt
  refine ⟨u, after, inside, tops, fun i later => deep i later, ?_⟩
  have first := step_listing order t
  rw [frontier_of_top order top, top] at first
  rw [visit, seen_take, if_neg (by simp), ← ran]
  exact Walk.run_of_step first

theorem foldl_visit_listing {starts : List (Fin n)} (all : ∀ i, depth i = 0 → i ∈ starts)
    (sorted : starts.Pairwise fun i j => depth j = 0 → i ≤ j) :
    starts.foldl (visit (below up)) [] = (listing depth (List.finRange n)).reverse := by
  suffices goes_on : ∀ t ≤ n, (∀ i : Fin n, i.val = t → depth i = 0) →
      (∀ i : Fin n, t ≤ i.val → depth i = 0 → i ∈ starts) →
      starts.foldl (visit (below up)) (listing depth ((List.finRange n).take t)).reverse =
        (listing depth (List.finRange n)).reverse by
    refine goes_on 0 (Nat.zero_le n) (fun i first => ?_) fun i _ => all i
    by_contra deep
    obtain ⟨j, earlier, -⟩ := order.hangs i deep
    exact absurd (Fin.lt_def.1 earlier) (by omega)
  clear all
  induction starts with
  | nil =>
    intro t le next rest
    obtain rfl : t = n := by
      by_contra other
      have less : t < n := by omega
      simpa using rest ⟨t, less⟩ le_rfl (next _ rfl)
    rw [List.foldl_nil, List.take_of_length_le (by simp)]
  | cons s later ih =>
    rw [List.pairwise_cons] at sorted
    intro t le next rest
    rw [List.foldl_cons]
    by_cases met : s.val < t
    · rw [visit, seen_take, if_pos (by simpa using met)]
      refine ih sorted.2 t le next fun i from_t top => ?_
      obtain rfl | member := List.mem_cons.1 (rest i from_t top)
      · omega
      · exact member
    · -- The next position at the top has its turn, and nobody goes before it but who is listed.
      obtain rfl : t = s.val := by
        have less : t < n := by omega
        have top := next ⟨t, less⟩ rfl
        obtain same | member := List.mem_cons.1 (rest ⟨t, less⟩ le_rfl top)
        · exact congrArg Fin.val same
        · have : s.val ≤ t := sorted.1 _ member top
          omega
      obtain ⟨u, after, inside, tops, deep, visited⟩ := visit_listing order (next s rfl)
      rw [visited]
      refine ih sorted.2 u inside tops fun i from_u top => ?_
      obtain rfl | member := List.mem_cons.1 (rest i (by omega) top)
      · omega
      · exact member

omit [DecidableRel up] order

structure PreOrdered (up : Fin n → Fin n → Prop) (depth : Fin n → Nat) : Prop where
  unique : Relator.RightUnique up
  top : ∀ i, (∀ j, ¬ up i j) ↔ i.val = 0
  depth_top : ∀ i, i.val = 0 → depth i = 0
  earlier : ∀ {i j}, up i j → j < i
  deeper : ∀ {i j}, up i j → depth i = depth j + 1
  between : ∀ {i j k}, up i j → j < k → k < i → depth j < depth k

theorem PreOrdered.depth_eq_zero_iff (pre : PreOrdered up depth) {i : Fin n} :
    depth i = 0 ↔ i.val = 0 := by
  refine ⟨fun zero => (pre.top i).1 fun j link => ?_, pre.depth_top i⟩
  rw [pre.deeper link] at zero
  cases zero

theorem PreOrdered.inOrder (pre : PreOrdered up depth) : InOrder up depth where
  unique := pre.unique
  hangs i deep := by
    obtain ⟨j, link⟩ : ∃ j, up i j := by
      by_contra none
      exact deep (pre.depth_top i ((pre.top i).1 fun j link => none ⟨j, link⟩))
    exact ⟨j, pre.earlier link, link, pre.deeper link, fun k => pre.between link⟩
  before link zero := absurd zero (by rw [pre.deeper link]; exact Nat.succ_ne_zero _)

end Waterfall.Forest
