import Waterfall.Proofs.PreOrder
import Waterfall.Proofs.RowOrder
import Waterfall.Proofs.SpanTree
import Waterfall.Trace

set_option autoImplicit false

namespace Waterfall

namespace Row

variable {spans : List Span} {depth : Fin spans.length → Nat}

theorem tops_eq_of_preOrdered (pre : Forest.PreOrdered (IsParent spans) depth)
    (pos : 0 < spans.length) : tops spans = [⟨0, pos⟩] := by
  rw [← List.perm_singleton, List.perm_ext_iff_of_nodup (tops_nodup spans) (List.nodup_singleton _)]
  intro i
  rw [mem_tops, pre.top, List.mem_singleton, Fin.ext_iff]

theorem places_of_preOrdered (pre : Forest.PreOrdered (IsParent spans) depth)
    (pos : 0 < spans.length) : places spans = Forest.listing depth (List.finRange spans.length) := by
  apply places_eq_of_walk
  · rw [tops_eq_of_preOrdered pre pos]
    refine Forest.foldl_visit_listing pre.inOrder (fun i top => ?_) (List.pairwise_singleton _ _)
    exact List.mem_singleton.2 (Fin.ext (pre.depth_eq_zero_iff.1 top))
  · intro i
    exact ⟨⟨i, depth i⟩, List.mem_map.2 ⟨i, List.mem_finRange i, rfl⟩, rfl⟩

end Row

namespace Span

variable {d : Document}

def kindDepth (spans : List Span) (i : Fin spans.length) : Nat :=
  (spans.get i).service.depth

theorem depth_at {i : Nat} {part : Part} {s : Span} (hp : d.parts[i]? = some part)
    (hs : (ofDocument d)[i]? = some s) : s.service.depth = part.depth := by
  rw [service_eq (shown_of_getElem? hp hs), part.depth_service]

theorem exists_isParent {i : Fin (ofDocument d).length} (inner : i.val ≠ 0) :
    ∃ j, Row.IsParent (ofDocument d) i j ∧ j < i ∧
      kindDepth (ofDocument d) i = kindDepth (ofDocument d) j + 1 ∧
      ∀ k, j < k → k < i → kindDepth (ofDocument d) j < kindDepth (ofDocument d) k := by
  have at_index (k : Fin (ofDocument d).length) :
      (ofDocument d)[k.val]? = some ((ofDocument d).get k) := List.getElem?_eq_getElem k.isLt
  obtain ⟨part, hp⟩ := getElem?_parts (at_index i)
  obtain ⟨m, hm⟩ := Nat.exists_eq_succ_of_ne_zero inner
  obtain ⟨up, link⟩ := exists_parent (i := m) (hm ▸ hp)
  obtain ⟨j, upper, earlier, found, listed, parent, between⟩ := exists_upper hp link (at_index i)
  obtain ⟨inside, rfl⟩ := List.getElem?_eq_some_iff.1 listed
  refine ⟨⟨j, inside⟩, ?_, earlier, ?_, fun k after before => ?_⟩
  · refine (Row.isParent_iff_of_nodup (ids_nodup d)).2 ⟨?_, parent⟩
    rintro rfl
    exact Nat.lt_irrefl _ earlier
  · calc kindDepth (ofDocument d) i = part.depth := depth_at hp (at_index i)
      _ = up.depth + 1 := Part.depth_eq link
      _ = kindDepth (ofDocument d) ⟨j, inside⟩ + 1 := congrArg (· + 1) (depth_at found listed).symm
  · obtain ⟨y, hy⟩ := getElem?_parts (at_index k)
    calc kindDepth (ofDocument d) ⟨j, inside⟩ = up.depth := depth_at found listed
      _ < y.depth := between k y after before hy
      _ = kindDepth (ofDocument d) k := (depth_at hy (at_index k)).symm

theorem preOrdered_ofDocument (d : Document) :
    Forest.PreOrdered (Row.IsParent (ofDocument d)) (kindDepth (ofDocument d)) := by
  have unique := Row.isParent_unique (ofDocument d)
  have root (i : Fin (ofDocument d).length) (first : i.val = 0) :
      Shown d .root ((ofDocument d).get i) :=
    shown_of_getElem? (i := 0) rfl (by simp [← first])
  have inner {i j : Fin (ofDocument d).length} (link : Row.IsParent (ofDocument d) i j) :
      i.val ≠ 0 := by
    intro first
    have parent := (root i first).parent
    rw [link.2.1] at parent
    cases parent
  -- Whatever is above a span is the parent that the outline gives.
  have above {i j : Fin (ofDocument d).length} (link : Row.IsParent (ofDocument d) i j) :
      j < i ∧ kindDepth (ofDocument d) i = kindDepth (ofDocument d) j + 1 ∧
        ∀ k, j < k → k < i →
          kindDepth (ofDocument d) j < kindDepth (ofDocument d) k := by
    obtain ⟨j', link', facts⟩ := exists_isParent (inner link)
    exact unique link' link ▸ facts
  refine ⟨unique, fun i => ⟨fun none => ?_, fun first j link => inner link first⟩, fun i first => ?_,
    fun link => (above link).1, fun link => (above link).2.1, fun link => (above link).2.2 _⟩
  · by_contra other
    obtain ⟨j, link, -⟩ := exists_isParent other
    exact none j link
  · rw [kindDepth, service_eq (root i first)]
    rfl

end Span

namespace Trace

theorem length_rows (spans : List Span) : (ofSpans spans).rows.length = spans.length :=
  Row.length_ofSpans spans

theorem one_le_length_rows (d : Document) : 1 ≤ (ofDocument d).rows.length :=
  (Nat.succ_pos _).trans_eq (length_rows (Span.ofDocument d)).symm

end Trace

theorem Row.ofSpans_ofDocument (d : Document) :
    Row.ofSpans (Span.ofDocument d) =
      (Span.ofDocument d).mapIdx fun i s => ⟨s, i, s.service.depth⟩ := by
  have pos : 0 < (Span.ofDocument d).length := Nat.succ_pos _
  rw [Row.ofSpans, Row.places_of_preOrdered (Span.preOrdered_ofDocument d) pos]
  apply List.ext_getElem
  · simp [Forest.listing]
  · simp [Forest.listing, Span.kindDepth]

end Waterfall
