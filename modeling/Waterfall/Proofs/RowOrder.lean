import Waterfall.Proofs.Forest
import Waterfall.Proofs.Rows

set_option autoImplicit false

namespace Waterfall.Row

open Forest (Acyclic expand)
open Relation (TransGen ReflTransGen)

variable {spans : List Span}

theorem start_trans (i j k : Fin spans.length)
    (h : decide ((spans.get i).start ≤ (spans.get j).start) = true)
    (h' : decide ((spans.get j).start ≤ (spans.get k).start) = true) :
    decide ((spans.get i).start ≤ (spans.get k).start) = true := by
  rw [decide_eq_true_eq] at *
  exact UInt64.le_trans h h'

theorem start_total (i j : Fin spans.length) :
    (decide ((spans.get i).start ≤ (spans.get j).start) ||
      decide ((spans.get j).start ≤ (spans.get i).start)) = true := by
  rw [Bool.or_eq_true, decide_eq_true_eq, decide_eq_true_eq]
  exact UInt64.le_total _ _

theorem byStart_perm (positions : List (Fin spans.length)) :
    (byStart spans positions).Perm positions :=
  List.mergeSort_perm _ _

theorem byStart_filter (positions : List (Fin spans.length)) (t : UInt64) :
    (byStart spans positions).filter (fun i => (spans.get i).start = t) =
      positions.filter (fun i => (spans.get i).start = t) := by
  -- The sort is stable: a sublist that is in order already comes out as it is.
  have together : (positions.filter fun i => decide ((spans.get i).start = t)).Pairwise
      fun i j => decide ((spans.get i).start ≤ (spans.get j).start) = true := by
    rw [List.pairwise_filter]
    refine List.pairwise_of_forall fun i j hi hj => ?_
    simp_all
  have kept := (List.sublist_mergeSort start_trans start_total together
    List.filter_sublist).filter fun i => decide ((spans.get i).start = t)
  rw [List.filter_filter] at kept
  simp only [Bool.and_self] at kept
  exact (kept.eq_of_length ((byStart_perm positions).filter _).length_eq.symm).symm

theorem byStart_pairwise {positions : List (Fin spans.length)}
    (increasing : positions.Pairwise (· < ·)) :
    (byStart spans positions).Pairwise fun i j =>
      (spans.get i).start < (spans.get j).start ∨
        (spans.get i).start = (spans.get j).start ∧ i < j := by
  have sorted := List.pairwise_mergeSort start_trans start_total positions
  rw [List.pairwise_iff_forall_sublist] at sorted increasing ⊢
  intro i j pair
  have ordered : (spans.get i).start ≤ (spans.get j).start := by simpa using sorted pair
  obtain less | same := UInt64.lt_or_eq_of_le ordered
  · exact .inl less
  · -- The pair survives in the part that starts together, which is as it was.
    have kept := pair.filter fun k => decide ((spans.get k).start = (spans.get j).start)
    have both : ∀ k ∈ [i, j], decide ((spans.get k).start = (spans.get j).start) = true := by
      intro k member
      rw [List.mem_pair] at member
      obtain rfl | rfl := member
      · exact decide_eq_true same
      · exact decide_eq_true rfl
    rw [byStart_filter, List.filter_eq_self.2 both] at kept
    exact .inr ⟨same, increasing (kept.trans List.filter_sublist)⟩

theorem isParent_unique (spans : List Span) : Relator.RightUnique (IsParent spans) := by
  intro i j k hj hk
  rw [← parentOf_eq_some_iff] at hj hk
  exact Option.some.inj (hj.symm.trans hk)

theorem children_eq_below (spans : List Span) :
    children (parents spans) = Forest.below (IsParent spans) := by
  funext i
  refine List.filter_congr fun c _ => ?_
  simp only [get_parents, parentOf_eq_some_iff]

def tops (spans : List Span) : List (Fin spans.length) :=
  byStart spans ((List.finRange spans.length).filter fun i => (parentOf spans i).isNone)

theorem mem_tops {i : Fin spans.length} : i ∈ tops spans ↔ ∀ j, ¬ IsParent spans i j := by
  rw [tops, mem_byStart, List.mem_filter, Option.isNone_iff_eq_none,
    Option.eq_none_iff_forall_ne_some]
  simp [parentOf_eq_some_iff]

theorem tops_pairwise (spans : List Span) :
    (tops spans).Pairwise fun i j =>
      (spans.get i).start < (spans.get j).start ∨
        (spans.get i).start = (spans.get j).start ∧ i < j :=
  byStart_pairwise ((List.pairwise_lt_finRange _).filter _)

theorem tops_nodup (spans : List Span) : (tops spans).Nodup := by
  refine (tops_pairwise spans).imp ?_
  rintro i j order rfl
  obtain less | ⟨-, less⟩ := order
  · exact UInt64.lt_irrefl _ less
  · exact lt_irrefl _ less

-- Where the walk from the tops meets every span, none is stranded.
theorem places_eq_of_walk {l : List (Place spans.length)}
    (walked : (tops spans).foldl (Walk.visit (Forest.below (IsParent spans))) [] = l.reverse)
    (all : ∀ i, ∃ p ∈ l, p.position = i) : places spans = l := by
  have roots : byStart spans ((List.finRange spans.length).filter
      fun i => ((parents spans).get i).isNone) = tops spans := by
    simp only [get_parents, tops]
  have all_seen (i : Fin spans.length) : Walk.seen l.reverse i = true := by
    obtain ⟨p, member, rfl⟩ := all i
    rw [Walk.seen_eq_true_iff, List.map_reverse, List.mem_reverse]
    exact List.mem_map_of_mem member
  simp only [places, roots, children_eq_below, walked, all_seen, Bool.not_true, List.filter_false]
  simp [byStart]

theorem places_eq_flatMap (acyclic : Acyclic (IsParent spans)) :
    places spans = (tops spans).flatMap (expand acyclic 0) := by
  have apart : (tops spans).Pairwise (Forest.Apart (IsParent spans)) := by
    refine (tops_nodup spans).imp_of_mem ?_
    intro i j hi hj other
    refine Forest.apart_of_siblings acyclic (isParent_unique spans) (fun k => ?_) other
    exact iff_of_false (mem_tops.1 hi k) (mem_tops.1 hj k)
  apply places_eq_of_walk
  · rw [Forest.foldl_visit acyclic (isParent_unique spans) apart (fun _ _ _ _ => rfl),
      List.append_nil]
  · intro i
    -- Links without a cycle end, so every span lies in the tree of one of the tops.
    obtain ⟨top, path, none⟩ := Forest.exists_top acyclic i
    obtain ⟨p, member, same⟩ : ∃ p ∈ expand acyclic 0 top, p.position = i :=
      Forest.exists_mem_expand_iff.2 path
    exact ⟨p, List.mem_flatMap.2 ⟨top, mem_tops.2 none, member⟩, same⟩

theorem depth_eq_ncard (acyclic : Acyclic (IsParent spans)) {p : Place spans.length}
    (member : p ∈ places spans) : p.depth = {j | TransGen (IsParent spans) p.position j}.ncard := by
  rw [places_eq_flatMap acyclic, List.mem_flatMap] at member
  obtain ⟨top, is_top, inside⟩ := member
  refine Forest.depth_of_mem_expand (isParent_unique spans) ?_ inside
  have nothing : {j | TransGen (IsParent spans) top j} = ∅ := by
    ext j
    refine iff_of_false (fun path => ?_) (Set.notMem_empty j)
    obtain ⟨c, first, -⟩ := TransGen.head'_iff.1 path
    exact mem_tops.1 is_top c first
  rw [nothing, Set.ncard_empty]

theorem exists_block (acyclic : Acyclic (IsParent spans)) {k : Nat} {p : Place spans.length}
    (h : (places spans)[k]? = some p) :
    ∃ size, ∀ (m : Nat) (q : Place spans.length), (places spans)[m]? = some q →
      (TransGen (IsParent spans) q.position p.position ↔ k < m ∧ m ≤ k + size) := by
  have whole : expand acyclic p.depth p.position <:+: places spans := by
    have member := List.mem_of_getElem? h
    rw [places_eq_flatMap acyclic, List.mem_flatMap] at member
    obtain ⟨top, is_top, inside⟩ := member
    rw [places_eq_flatMap acyclic, List.flatMap_def]
    exact (Forest.expand_infix inside).trans
      (List.infix_of_mem_flatten (List.mem_map_of_mem is_top))
  exact Forest.exists_block (positions_nodup spans) h whole

/-- Where no span is above itself the rows are those of plain recursion. -/
theorem ofSpans_eq_expand (acyclic : Acyclic (IsParent spans)) :
    (∀ i, i ∈ tops spans ↔ ∀ j, ¬ IsParent spans i j) ∧
      ((tops spans).Pairwise fun i j =>
        (spans.get i).start < (spans.get j).start ∨
          (spans.get i).start = (spans.get j).start ∧ i < j) ∧
      places spans = (tops spans).flatMap (expand acyclic 0) ∧
      ofSpans spans = ((tops spans).flatMap (expand acyclic 0)).mapIdx
        (fun k p => ⟨spans.get p.position, k, p.depth⟩) ∧
      (∀ p ∈ places spans, p.depth = {j | TransGen (IsParent spans) p.position j}.ncard) ∧
      ∀ (k : Nat) (p : Place spans.length), (places spans)[k]? = some p →
        ∃ size, ∀ (m : Nat) (q : Place spans.length), (places spans)[m]? = some q →
          (TransGen (IsParent spans) q.position p.position ↔ k < m ∧ m ≤ k + size) := by
  have listed := places_eq_flatMap acyclic
  refine ⟨fun i => mem_tops, tops_pairwise spans, listed, ?_, fun p => depth_eq_ncard acyclic,
    fun k p => exists_block acyclic⟩
  rw [ofSpans, listed]

theorem ofSpans_eq_expand_twins :
    let span (id : String) (parent : Option String) (start : UInt64) : Span :=
      { (default : Span) with id, parent, start }
    let spans := [span "leaf" (some "a") 7, span "a" none 5, span "b" (some "gone") 5,
      span "tip" (some "leaf") 1]
    ∃ acyclic : Acyclic (IsParent spans),
      ofSpans spans = ((tops spans).flatMap (expand acyclic 0)).mapIdx
        (fun k p => ⟨spans.get p.position, k, p.depth⟩) := by
  intro span spans
  have acyclic : Acyclic (IsParent spans) :=
    .of_rank (fun i => [1, 0, 0, 2].getD i 0) (by decide)
  exact ⟨acyclic, (ofSpans_eq_expand acyclic).2.2.2.1⟩

end Waterfall.Row
