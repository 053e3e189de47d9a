import Waterfall.Proofs.Cycles
import Waterfall.Proofs.PreOrder

set_option autoImplicit false

namespace Waterfall.Row

open Relation (ReflTransGen)

variable {spans : List Span}

def placeOf (k : Fin (inRows spans).length) : Place spans.length :=
  (places spans).get (k.cast (by rw [inRows_eq, List.length_map]))

section Places

variable {k l : Fin (inRows spans).length}

theorem places_eq_placeOf (k : Fin (inRows spans).length) :
    (places spans)[k.val]? = some (placeOf k) :=
  List.getElem?_eq_getElem _

theorem placeOf_eq {m : Nat} {p : Place spans.length} (listed : (places spans)[m]? = some p) :
    ∃ k : Fin (inRows spans).length, k.val = m ∧ placeOf k = p := by
  obtain ⟨inside, rfl⟩ := List.getElem?_eq_some_iff.1 listed
  exact ⟨⟨m, by rwa [inRows_eq, List.length_map]⟩, rfl, rfl⟩

theorem get_inRows (k : Fin (inRows spans).length) :
    (inRows spans).get k = spans.get (placeOf k).position := by
  simp [inRows_eq, placeOf]

theorem exists_placeOf (i : Fin spans.length) :
    ∃ k : Fin (inRows spans).length, (placeOf k).position = i := by
  obtain ⟨m, p, listed, rfl⟩ := exists_place i
  obtain ⟨k, -, rfl⟩ := placeOf_eq listed
  exact ⟨k, rfl⟩

theorem placeOf_inj : (placeOf k).position = (placeOf l).position ↔ k = l := by
  refine ⟨fun same => Fin.ext ?_, fun same => same ▸ rfl⟩
  exact places_inj (places_eq_placeOf k) (places_eq_placeOf l) same

variable (apart : (spans.map (·.id)).Nodup)

include apart

theorem isParent_inRows_iff :
    IsParent (inRows spans) k l ↔ IsParent spans (placeOf k).position (placeOf l).position := by
  have apart_inRows : ((inRows spans).map (·.id)).Nodup := ((inRows_perm spans).map _).nodup_iff.2 apart
  rw [isParent_iff_of_nodup apart_inRows, isParent_iff_of_nodup apart, get_inRows, get_inRows, ne_eq,
    ne_eq, placeOf_inj]

theorem mem_tops_inRows : k ∈ tops (inRows spans) ↔ (placeOf k).position ∈ tops spans := by
  rw [mem_tops, mem_tops]
  constructor
  · intro none j link
    obtain ⟨l, rfl⟩ := exists_placeOf j
    exact none l ((isParent_inRows_iff apart).2 link)
  · exact fun none l link => none _ ((isParent_inRows_iff apart).1 link)

theorem path_inRows_iff :
    ReflTransGen (IsParent (inRows spans)) k l ↔
      ReflTransGen (IsParent spans) (placeOf k).position (placeOf l).position := by
  constructor
  · exact fun path =>
      path.lift (fun k => (placeOf k).position) fun _ _ => (isParent_inRows_iff apart).1
  · generalize here : (placeOf k).position = i
    intro path
    induction path using ReflTransGen.head_induction_on generalizing k with
    | refl => exact placeOf_inj.1 here ▸ .refl
    | @head _ next link _ ih =>
      subst here
      obtain ⟨m, rfl⟩ := exists_placeOf next
      exact .head ((isParent_inRows_iff apart).2 link) (ih rfl)

theorem mem_turns_inRows : k ∈ turns (inRows spans) ↔ (placeOf k).position ∈ turns spans := by
  have stranded : k ∈ stranded (inRows spans) ↔ (placeOf k).position ∈ stranded spans := by
    rw [mem_stranded, mem_stranded]
    constructor
    · intro none t top path
      obtain ⟨l, rfl⟩ := exists_placeOf t
      exact none l ((mem_tops_inRows apart).2 top) ((path_inRows_iff apart).2 path)
    · exact fun none l top path =>
        none _ ((mem_tops_inRows apart).1 top) ((path_inRows_iff apart).1 path)
  rw [mem_turns_iff, mem_turns_iff, mem_tops_inRows apart, stranded]

theorem inOrder_inRows :
    Forest.InOrder (IsParent (inRows spans)) fun k => (placeOf k).depth where
  unique := isParent_unique _
  hangs k deep := by
    obtain ⟨d, depth⟩ := Nat.exists_eq_succ_of_ne_zero deep
    obtain ⟨j, upper, earlier, found, link, below, between⟩ := places_below (places_eq_placeOf k) depth
    obtain ⟨l, rfl, rfl⟩ := placeOf_eq found
    refine ⟨l, earlier, (isParent_inRows_iff apart).2 link, by rw [depth, below], ?_⟩
    exact fun m after before => below.symm ▸ between m _ after before (places_eq_placeOf m)
  before link top := lt_of_isParent_of_top (places_eq_placeOf _) top (places_eq_placeOf _)
    ((isParent_inRows_iff apart).1 link)

-- A span at the top is still the next to start: who could go before it is listed after it.
theorem turns_inRows_pairwise :
    (turns (inRows spans)).Pairwise fun k l => (placeOf l).depth = 0 → k ≤ l := by
  refine (turns_pairwise _).imp_of_mem fun {k l} start _ ⟨kind, order⟩ top => ?_
  by_contra later
  rw [not_le] at later
  obtain ⟨first_kind, first_order⟩ := turn_of_later (places_eq_placeOf l) top later (places_eq_placeOf k)
    ((mem_turns_inRows apart).1 start)
  simp only [mem_tops_inRows apart] at kind order
  have first := (first_order ⟨kind, first_kind⟩).start_le
  rw [← get_inRows, ← get_inRows] at first
  obtain less | ⟨-, before⟩ := order ⟨first_kind, kind⟩
  · exact UInt64.not_le.2 less first
  · exact lt_asymm before later

theorem places_inRows :
    places (inRows spans) =
      Forest.listing (fun k => (placeOf k).depth) (List.finRange (inRows spans).length) := by
  rw [places_eq_foldl, Forest.foldl_visit_listing (inOrder_inRows apart) ?_
    (turns_inRows_pairwise apart), List.reverse_reverse]
  exact fun k top => (mem_turns_inRows apart).2 (mem_turns_of_top (places_eq_placeOf k) top)

omit apart

end Places

/-- Where no id is given twice, spans in the order of their rows have the same rows again. -/
theorem ofSpans_ofSpans (spans : List Span) (apart : (spans.map (·.id)).Nodup) :
    ofSpans ((ofSpans spans).map (·.span)) = ofSpans spans := by
  change ofSpans (inRows spans) = ofSpans spans
  apply List.ext_getElem
  · simp [ofSpans, places_inRows apart, Forest.listing, inRows_eq]
  · intro k inside inside'
    simp only [ofSpans, List.getElem_mapIdx, places_inRows apart, Forest.listing, List.getElem_map,
      List.getElem_finRange, get_inRows]
    rfl

-- A cycle of two that start together, a span that starts before them and one that starts after them,
-- one that is its own parent and one whose parent is not there.
theorem ofSpans_ofSpans_tangled :
    let span (id : String) (parent : Option String) (start : UInt64) : Span :=
      { (default : Span) with id, parent, start }
    let spans := [span "late" (some "x") 9, span "self" (some "self") 3, span "x" (some "y") 2,
      span "y" (some "x") 2, span "lost" (some "gone") 3, span "early" (some "x") 0, span "root" none 1]
    (spans.map (·.id)).Nodup ∧
      (ofSpans spans).map (fun r => (r.span.id, r.depth)) = [("root", 0), ("self", 0), ("lost", 0),
        ("early", 0), ("x", 0), ("late", 1), ("y", 1)] ∧
      ofSpans ((ofSpans spans).map (·.span)) = ofSpans spans := by
  intro span spans
  have apart : (spans.map (·.id)).Nodup := by decide
  exact ⟨apart, by cbv, ofSpans_ofSpans spans apart⟩

end Waterfall.Row
