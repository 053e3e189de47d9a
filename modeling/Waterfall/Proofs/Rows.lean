import Mathlib
import Waterfall.Proofs.Walk
import Waterfall.Row

set_option autoImplicit false

namespace Waterfall.Row

variable {spans : List Span}

def IsParent (spans : List Span) (i j : Fin spans.length) : Prop :=
  i ≠ j ∧ (spans.get i).parent = some (spans.get j).id ∧
    ∀ k < j, (spans.get k).id ≠ (spans.get j).id

instance (spans : List Span) : DecidableRel (IsParent spans) := fun i j =>
  inferInstanceAs (Decidable (i ≠ j ∧ (spans.get i).parent = some (spans.get j).id ∧
    ∀ k < j, (spans.get k).id ≠ (spans.get j).id))

-- Where no id is given twice a name has one bearer.
theorem isParent_iff_of_nodup (nodup : (spans.map (·.id)).Nodup) {i j : Fin spans.length} :
    IsParent spans i j ↔ i ≠ j ∧ (spans.get i).parent = some (spans.get j).id := by
  refine ⟨fun link => ⟨link.1, link.2.1⟩, fun ⟨other, named⟩ => ⟨other, named, fun k before same => ?_⟩⟩
  have := (List.getElem?_inj (i := k) (j := j) (by simp) nodup).1 (by simpa using same)
  exact before.ne (Fin.ext this)

theorem position?_eq_some_iff {id : String} {j : Fin spans.length} :
    position? spans id = some j ↔ (spans.get j).id = id ∧ ∀ k < j, (spans.get k).id ≠ id := by
  simp [position?]

theorem parentOf_eq_some_iff {i j : Fin spans.length} :
    parentOf spans i = some j ↔ IsParent spans i j := by
  simp only [parentOf, Option.filter_eq_some_iff, Option.bind_eq_some_iff, position?_eq_some_iff,
    IsParent, decide_eq_true_eq]
  constructor
  · rintro ⟨⟨id, named, rfl, first⟩, other⟩
    exact ⟨Ne.symm other, named, first⟩
  · rintro ⟨other, named, first⟩
    exact ⟨⟨_, named, rfl, first⟩, Ne.symm other⟩

theorem mem_children_parents {i c : Fin spans.length} :
    c ∈ children (parents spans) i ↔ IsParent spans c i := by
  rw [mem_children, get_parents, parentOf_eq_some_iff]

theorem mem_byStart {positions : List (Fin spans.length)} {i : Fin spans.length} :
    i ∈ byStart spans positions ↔ i ∈ positions :=
  List.mem_mergeSort

theorem places_eq_reverse (spans : List Span) :
    ∃ placed, places spans = placed.reverse ∧ Walk.Nested (IsParent spans) placed ∧
      ∀ i, Walk.seen placed i = true := by
  have links : ∀ i, ∀ c ∈ children (parents spans) i, IsParent spans c i :=
    fun i c => mem_children_parents.1
  refine ⟨_, rfl, ?_, ?_⟩
  · exact ((show Walk.Nested (IsParent spans) [] from trivial).foldl_visit links _).foldl_visit links _
  · intro i
    -- What the roots do not reach is a start of its own.
    apply Walk.seen_foldl_visit
    rw [mem_byStart, List.mem_filter, Bool.not_eq_true']
    cases met : Walk.seen _ i with
    | true => exact .inl rfl
    | false => exact .inr ⟨List.mem_finRange i, rfl⟩

theorem ofSpans_getElem? (spans : List Span) (k : Nat) :
    (ofSpans spans)[k]? = (places spans)[k]?.map fun p => ⟨spans.get p.position, k, p.depth⟩ := by
  simp [ofSpans]

theorem positions_perm (spans : List Span) :
    ((places spans).map (·.position)).Perm (List.finRange spans.length) := by
  obtain ⟨placed, listed, nested, all⟩ := places_eq_reverse spans
  rw [listed, List.map_reverse]
  apply (List.reverse_perm _).trans
  rw [List.perm_ext_iff_of_nodup nested.nodup (List.nodup_finRange _)]
  intro i
  simpa using Walk.seen_eq_true_iff.1 (all i)

theorem positions_nodup (spans : List Span) : ((places spans).map (·.position)).Nodup :=
  (positions_perm spans).nodup_iff.2 (List.nodup_finRange _)

def inRows (spans : List Span) : List Span :=
  (ofSpans spans).map (·.span)

theorem inRows_eq (spans : List Span) :
    inRows spans = (places spans).map fun p => spans.get p.position := by
  apply List.ext_getElem
  · simp [inRows, ofSpans]
  · simp [inRows, ofSpans]

theorem inRows_perm (spans : List Span) : (inRows spans).Perm spans := by
  have listed := (positions_perm spans).map spans.get
  rwa [List.map_map, ← List.ofFn_eq_map, List.ofFn_get, Function.comp_def, ← inRows_eq] at listed

theorem length_ofSpans (spans : List Span) : (ofSpans spans).length = spans.length := by
  rw [← (inRows_perm spans).length_eq, inRows, List.length_map]

theorem index_eq_of_getElem? {i : Nat} {row : Row} (listed : (ofSpans spans)[i]? = some row) :
    row.index = i := by
  rw [ofSpans_getElem?] at listed
  obtain ⟨place, -, rfl⟩ := Option.map_eq_some_iff.1 listed
  rfl

theorem places_below {k d : Nat} {p : Place spans.length}
    (h : (places spans)[k]? = some p) (depth : p.depth = d + 1) :
    ∃ j upper, j < k ∧ (places spans)[j]? = some upper ∧ IsParent spans p.position upper.position ∧
      upper.depth = d ∧ ∀ m q, j < m → m < k → (places spans)[m]? = some q → d < q.depth := by
  obtain ⟨placed, listed, nested, -⟩ := places_eq_reverse spans
  rw [listed] at h ⊢
  obtain top | ⟨j, upper, earlier, found, link, deeper, inside⟩ := nested.listed h
  · omega
  · obtain rfl : upper.depth = d := by omega
    exact ⟨j, upper, earlier, found, link, rfl, inside⟩

theorem ofSpans_pre_order (spans : List Span) :
    ((places spans).map (·.position)).Perm (List.finRange spans.length) ∧
      (∀ k : Nat, (ofSpans spans)[k]? =
        (places spans)[k]?.map fun p => ⟨spans.get p.position, k, p.depth⟩) ∧
      (∀ first : Row, (ofSpans spans)[0]? = some first → first.depth = 0) ∧
      ∀ (k d : Nat) (p : Place spans.length), (places spans)[k]? = some p → p.depth = d + 1 →
        ∃ (j : Nat) (upper : Place spans.length), j < k ∧ (places spans)[j]? = some upper ∧
          IsParent spans p.position upper.position ∧ upper.depth = d ∧
          ∀ (m : Nat) (q : Place spans.length), j < m → m < k →
            (places spans)[m]? = some q → d < q.depth := by
  refine ⟨positions_perm spans, ofSpans_getElem? spans, ?_, fun k d p => places_below⟩
  intro first h
  rw [ofSpans_getElem?, Option.map_eq_some_iff] at h
  obtain ⟨p, listed, rfl⟩ := h
  -- A first row below the top would follow the row of its parent.
  cases depth : p.depth with
  | zero => rfl
  | succ d =>
    obtain ⟨j, upper, earlier, -⟩ := places_below listed depth
    omega

end Waterfall.Row
