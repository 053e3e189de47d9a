import Mathlib.Data.Fintype.Card
import Mathlib.Data.List.FinRange
import Mathlib.Data.Set.Card
import Mathlib.Logic.Relation
import Waterfall.Proofs.Walk

set_option autoImplicit false

namespace Waterfall.Forest

open Relation (ReflTransGen TransGen)
open Walk (seen step run visit)

variable {n : Nat} {up : Fin n → Fin n → Prop}

def Acyclic (up : Fin n → Fin n → Prop) : Prop :=
  ∀ i, ¬ TransGen up i i

theorem Acyclic.wellFounded (acyclic : Acyclic up) : WellFounded up := by
  have trans : IsTrans (Fin n) (TransGen up) := ⟨fun _ _ _ => TransGen.trans⟩
  have irrefl : Std.Irrefl (TransGen up) := ⟨acyclic⟩
  exact Subrelation.wf TransGen.single (Finite.wellFounded_of_trans_of_irrefl (TransGen up))

theorem Acyclic.of_rank (rank : Fin n → Nat) (lower : ∀ i j, up i j → rank j < rank i) :
    Acyclic up := by
  have falls {i j : Fin n} (path : TransGen up i j) : rank j < rank i := by
    induction path with
    | single link => exact lower _ _ link
    | tail _ link ih => exact (lower _ _ link).trans ih
  exact fun i path => Nat.lt_irrefl _ (falls path)

theorem exists_top (acyclic : Acyclic up) (i : Fin n) :
    ∃ top, ReflTransGen up i top ∧ ∀ j, ¬ up top j := by
  have reversed : Acyclic fun i j => up j i := fun i path => acyclic i path.swap
  induction i using reversed.wellFounded.induction with
  | _ i ih =>
    by_cases linked : ∃ j, up i j
    · obtain ⟨j, link⟩ := linked
      obtain ⟨top, path, none⟩ := ih j link
      exact ⟨top, .head link path, none⟩
    · exact ⟨i, .refl, fun j link => linked ⟨j, link⟩⟩

def below (up : Fin n → Fin n → Prop) [DecidableRel up] (i : Fin n) : List (Fin n) :=
  (List.finRange n).filter fun c => up c i

variable [DecidableRel up]

@[simp] theorem mem_below {i c : Fin n} : c ∈ below up i ↔ up c i := by
  simp [below]

theorem below_nodup (i : Fin n) : (below up i).Nodup :=
  (List.nodup_finRange n).filter _

def expand (acyclic : Acyclic up) (depth : Nat) (i : Fin n) : List (Place n) :=
  ⟨i, depth⟩ :: (below up i).attach.flatMap fun c => expand acyclic (depth + 1) c.1
termination_by acyclic.wellFounded.wrap i
decreasing_by exact mem_below.1 c.2

theorem expand_eq (acyclic : Acyclic up) (depth : Nat) (i : Fin n) :
    expand acyclic depth i =
      ⟨i, depth⟩ :: (below up i).flatMap (expand acyclic (depth + 1)) := by
  rw [expand]
  simp

theorem mem_expand_iff {acyclic : Acyclic up} {depth : Nat} {i : Fin n} {p : Place n} :
    p ∈ expand acyclic depth i ↔
      p = ⟨i, depth⟩ ∨ ∃ c, up c i ∧ p ∈ expand acyclic (depth + 1) c := by
  simp [expand_eq acyclic depth i]

theorem exists_mem_expand_iff {acyclic : Acyclic up} {depth : Nat} {i x : Fin n} :
    (∃ p ∈ expand acyclic depth i, p.position = x) ↔ ReflTransGen up x i := by
  constructor
  · rintro ⟨p, member, rfl⟩
    induction i using acyclic.wellFounded.induction generalizing depth with
    | _ i ih =>
      obtain rfl | ⟨c, child, inside⟩ := mem_expand_iff.1 member
      · exact .refl
      · exact (ih c child inside).tail child
  · intro path
    induction path generalizing depth with
    | refl => exact ⟨⟨x, depth⟩, mem_expand_iff.2 (.inl rfl), rfl⟩
    | @tail c i path link ih =>
      obtain ⟨p, inside, same⟩ := @ih (depth + 1)
      exact ⟨p, mem_expand_iff.2 (.inr ⟨c, link, inside⟩), same⟩

def Untouched (up : Fin n → Fin n → Prop) (placed : List (Place n)) (i : Fin n) : Prop :=
  ∀ x, ReflTransGen up x i → seen placed x = false

def Apart (up : Fin n → Fin n → Prop) (b c : Fin n) : Prop :=
  ∀ x, ReflTransGen up x b → ¬ ReflTransGen up x c

omit [DecidableRel up] in
-- Two positions under the same one, or both at the top.
theorem apart_of_siblings (acyclic : Acyclic up) (unique : Relator.RightUnique up) {b c : Fin n}
    (siblings : ∀ j, up b j ↔ up c j) (other : b ≠ c) : Apart up b c := by
  -- A path between the two would leave the first along a link that the second has as well.
  have no_path {b c : Fin n} (siblings : ∀ j, up b j ↔ up c j) (other : b ≠ c) :
      ¬ ReflTransGen up b c := by
    intro path
    obtain same | ⟨j, link, rest⟩ := path.cases_head
    · exact other same
    · exact acyclic c (.head' ((siblings j).1 link) rest)
  intro x path_b path_c
  obtain path | path := ReflTransGen.total_of_right_unique unique path_b path_c
  · exact no_path siblings other path
  · exact no_path (fun j => (siblings j).symm) other.symm path

theorem Untouched.append {acyclic : Acyclic up} {placed : List (Place n)} {depth : Nat}
    {b c : Fin n} (untouched : Untouched up placed c) (apart : Apart up b c) :
    Untouched up ((expand acyclic depth b).reverse ++ placed) c := by
  intro x path
  rw [Walk.seen_eq_false_iff, List.map_append, List.mem_append, List.map_reverse, List.mem_reverse]
  rintro (inside | listed)
  · obtain ⟨p, member, rfl⟩ := List.mem_map.1 inside
    exact apart p.position (exists_mem_expand_iff.1 ⟨p, member, rfl⟩) path
  · exact Walk.seen_eq_false_iff.1 (untouched x path) listed

-- The stack of a walk stands for the trees that are still to be listed.
theorem run_eq_of_forall (acyclic : Acyclic up) {depth : Nat} {rest : List (Place n)}
    {starts : List (Fin n)} (apart : starts.Pairwise (Apart up))
    (tree : ∀ c ∈ starts, ∀ placed rest, Untouched up placed c →
      run (below up) ⟨placed, ⟨c, depth⟩ :: rest⟩ =
        run (below up) ⟨(expand acyclic depth c).reverse ++ placed, rest⟩)
    {placed : List (Place n)} (untouched : ∀ c ∈ starts, Untouched up placed c) :
    run (below up) ⟨placed, starts.map (⟨·, depth⟩) ++ rest⟩ =
      run (below up) ⟨(starts.flatMap (expand acyclic depth)).reverse ++ placed, rest⟩ := by
  induction starts generalizing placed with
  | nil => rfl
  | cons c later ih =>
    rw [List.pairwise_cons] at apart
    rw [List.map_cons, List.cons_append, tree c (by simp) _ _ (untouched c (by simp)),
      ih apart.2 (fun d member => tree d (by simp [member]))]
    · simp
    · intro d member
      exact (untouched d (by simp [member])).append (apart.1 d member)

theorem run_expand (acyclic : Acyclic up) (unique : Relator.RightUnique up) {i : Fin n} {depth : Nat}
    {placed rest : List (Place n)} (untouched : Untouched up placed i) :
    run (below up) ⟨placed, ⟨i, depth⟩ :: rest⟩ =
      run (below up) ⟨(expand acyclic depth i).reverse ++ placed, rest⟩ := by
  induction i using acyclic.wellFounded.induction generalizing depth placed rest with
  | _ i ih =>
    -- Nothing below `i` is listed, so all its children are pushed, and each starts its own tree.
    have children_untouched : ∀ c ∈ below up i, Untouched up (⟨i, depth⟩ :: placed) c := by
      intro c child x path
      have here : i ≠ x := by
        rintro rfl
        exact acyclic i (.tail' path (mem_below.1 child))
      simpa [here] using untouched x (path.tail (mem_below.1 child))
    have all_fresh : Walk.fresh (below up) (⟨i, depth⟩ :: placed) ⟨i, depth⟩ =
        (below up i).map (⟨·, depth + 1⟩) := by
      unfold Walk.fresh
      rw [List.filter_eq_self.2]
      intro c child
      simpa using children_untouched c child c .refl
    have apart : (below up i).Pairwise (Apart up) := by
      refine (below_nodup i).imp_of_mem ?_
      intro b c hb hc other
      refine apart_of_siblings acyclic unique (fun j => ?_) other
      rw [mem_below] at hb hc
      exact ⟨fun link => unique hb link ▸ hc, fun link => unique hc link ▸ hb⟩
    rw [Walk.run_of_step (Walk.step_of_new (untouched i .refl)), all_fresh,
      run_eq_of_forall acyclic apart ?_ children_untouched, expand_eq]
    · simp
    · intro c child placed rest untouched
      exact ih c (mem_below.1 child) untouched

theorem foldl_visit (acyclic : Acyclic up) (unique : Relator.RightUnique up) {starts : List (Fin n)}
    (apart : starts.Pairwise (Apart up)) {placed : List (Place n)}
    (untouched : ∀ c ∈ starts, Untouched up placed c) :
    starts.foldl (visit (below up)) placed =
      (starts.flatMap (expand acyclic 0)).reverse ++ placed := by
  induction starts generalizing placed with
  | nil => rfl
  | cons c later ih =>
    rw [List.pairwise_cons] at apart
    have one : visit (below up) placed c = (expand acyclic 0 c).reverse ++ placed := by
      rw [visit, if_neg (by simp [untouched c (by simp) c .refl]),
        run_expand acyclic unique (untouched c (by simp)), Walk.run_done]
    rw [List.foldl_cons, one, ih apart.2]
    · simp
    · intro d member
      exact (untouched d (by simp [member])).append (apart.1 d member)

omit [DecidableRel up] in
theorem above_of_link (unique : Relator.RightUnique up) {c i : Fin n} (link : up c i) :
    {j | TransGen up c j} = insert i {j | TransGen up i j} := by
  ext j
  constructor
  · intro path
    obtain ⟨d, first, rest⟩ := TransGen.head'_iff.1 path
    rw [unique first link, Relation.reflTransGen_iff_eq_or_transGen] at rest
    exact rest
  · rintro (rfl | path)
    · exact .single link
    · exact .head link path

theorem depth_of_mem_expand {acyclic : Acyclic up} (unique : Relator.RightUnique up) {i : Fin n}
    {depth : Nat} (start : depth = {j | TransGen up i j}.ncard) {p : Place n}
    (member : p ∈ expand acyclic depth i) : p.depth = {j | TransGen up p.position j}.ncard := by
  induction i using acyclic.wellFounded.induction generalizing depth with
  | _ i ih =>
    obtain rfl | ⟨c, child, inside⟩ := mem_expand_iff.1 member
    · exact start
    · -- A child has one position more above it, namely `i`.
      have strict : i ∉ {j | TransGen up i j} := acyclic i
      refine ih c child ?_ inside
      rw [above_of_link unique child, Set.ncard_insert_of_notMem strict, start]

theorem expand_infix {acyclic : Acyclic up} {depth : Nat} {i : Fin n} {p : Place n}
    (member : p ∈ expand acyclic depth i) :
    expand acyclic p.depth p.position <:+: expand acyclic depth i := by
  induction i using acyclic.wellFounded.induction generalizing depth with
  | _ i ih =>
    obtain rfl | ⟨c, child, inside⟩ := mem_expand_iff.1 member
    · exact List.infix_rfl
    · have one : expand acyclic (depth + 1) c ∈ (below up i).map (expand acyclic (depth + 1)) :=
        List.mem_map_of_mem (mem_below.2 child)
      rw [expand_eq acyclic depth i, List.flatMap_def]
      exact ((ih c child inside).trans (List.infix_of_mem_flatten one)).trans
        (List.suffix_cons _ _).isInfix

-- In a list without repetition, what has a position above it fills the places after that one.
theorem exists_block {acyclic : Acyclic up} {l : List (Place n)}
    (nodup : (l.map (·.position)).Nodup) {k : Nat} {p : Place n} (h : l[k]? = some p)
    (whole : expand acyclic p.depth p.position <:+: l) :
    ∃ size, ∀ (m : Nat) (q : Place n), l[m]? = some q →
      (TransGen up q.position p.position ↔ k < m ∧ m ≤ k + size) := by
  obtain ⟨before, after, split⟩ := whole
  rw [expand_eq] at split
  generalize tail_def : (below up p.position).flatMap (expand acyclic (p.depth + 1)) = tail at split
  obtain rfl : k = before.length := Walk.index_of_position nodup h (by simp [← split]) rfl
  have at_tail (t : Nat) (inside : t < tail.length) : l[before.length + (t + 1)]? = tail[t]? := by
    rw [← split, List.append_assoc, List.getElem?_append_right (by omega)]
    simp [List.getElem?_append, inside]
  have mem_whole {q : Place n} : q ∈ expand acyclic p.depth p.position ↔ q = p ∨ q ∈ tail := by
    rw [expand_eq, tail_def, List.mem_cons]
  refine ⟨tail.length, fun m q hq => ⟨fun path => ?_, fun within => ?_⟩⟩
  · obtain ⟨r, member, same⟩ := exists_mem_expand_iff.2 path.to_reflTransGen
    obtain rfl | inside := mem_whole.1 member
    · exact absurd path (same ▸ acyclic _)
    · obtain ⟨t, ht, rfl⟩ := List.getElem_of_mem inside
      have := Walk.index_of_position nodup (at_tail t ht ▸ List.getElem?_eq_getElem ht) hq same
      omega
  · obtain ⟨t, rfl⟩ : ∃ t, m = before.length + (t + 1) := ⟨m - before.length - 1, by omega⟩
    have inside : q ∈ tail := List.mem_of_getElem? (at_tail t (by omega) ▸ hq)
    have path := exists_mem_expand_iff.1 ⟨q, mem_whole.2 (.inr inside), rfl⟩
    obtain same | path := Relation.reflTransGen_iff_eq_or_transGen.1 path
    · have := Walk.index_of_position nodup h hq same
      omega
    · exact path

end Waterfall.Forest
