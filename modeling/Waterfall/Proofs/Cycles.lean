import Waterfall.Proofs.RowOrder
import Waterfall.Proofs.Visits

set_option autoImplicit false

namespace Waterfall.Row

open Relation (TransGen ReflTransGen)

variable {spans : List Span} {i j : Fin spans.length}

/-- The spans that cannot be reached from one without a parent, in order of start. -/
def stranded (spans : List Span) : List (Fin spans.length) :=
  byStart spans ((List.finRange spans.length).filter fun i =>
    !Walk.seen ((tops spans).foldl (Walk.visit (Forest.below (IsParent spans))) []) i)

def turns (spans : List Span) : List (Fin spans.length) :=
  tops spans ++ stranded spans

theorem places_eq_foldl (spans : List Span) :
    places spans =
      ((turns spans).foldl (Walk.visit (Forest.below (IsParent spans))) []).reverse := by
  simp only [places, turns, stranded, tops, get_parents, children_eq_below, List.foldl_append]

theorem seen_visits_iff {starts : List (Fin spans.length)} :
    Walk.seen (starts.foldl (Walk.visit (Forest.below (IsParent spans))) []) i = true ↔
      ∃ s ∈ starts, ReflTransGen (IsParent spans) i s :=
  Walk.seen_foldl_visit_iff fun _ _ => Forest.mem_below

theorem mem_stranded :
    i ∈ stranded spans ↔ ∀ t ∈ tops spans, ¬ ReflTransGen (IsParent spans) i t := by
  rw [stranded, mem_byStart, List.mem_filter, Bool.not_eq_true', ← Bool.not_eq_true,
    seen_visits_iff]
  simp

theorem stranded_of_above (below : i ∈ stranded spans) (path : ReflTransGen (IsParent spans) i j) :
    j ∈ stranded spans :=
  mem_stranded.2 fun t top rest => mem_stranded.1 below t top (path.trans rest)

theorem mem_turns_iff : i ∈ turns spans ↔ i ∈ tops spans ∨ i ∈ stranded spans :=
  List.mem_append

theorem not_mem_tops_of_stranded (below : i ∈ stranded spans) : i ∉ tops spans :=
  fun top => mem_stranded.1 below i top .refl

def Precedes (spans : List Span) (i j : Fin spans.length) : Prop :=
  (spans.get i).start < (spans.get j).start ∨ (spans.get i).start = (spans.get j).start ∧ i < j

theorem Precedes.start_le (order : Precedes spans i j) : (spans.get i).start ≤ (spans.get j).start :=
  order.elim UInt64.le_of_lt fun same => UInt64.le_of_eq same.1

theorem Precedes.asymm (order : Precedes spans i j) : ¬ Precedes spans j i := by
  rintro (less | ⟨same, before⟩)
  · exact UInt64.not_le.2 less order.start_le
  · obtain less | ⟨-, after⟩ := order
    · exact UInt64.ne_of_lt less same.symm
    · exact lt_asymm before after

-- The tops take their turns first, and each kind in order of start.
theorem turns_pairwise (spans : List Span) :
    (turns spans).Pairwise fun i j => (j ∈ tops spans → i ∈ tops spans) ∧
      ((i ∈ tops spans ↔ j ∈ tops spans) → Precedes spans i j) := by
  refine List.pairwise_append.2 ⟨?_, ?_, ?_⟩
  · exact (tops_pairwise spans).imp_of_mem fun top _ order => ⟨fun _ => top, fun _ => order⟩
  · have sorted := byStart_pairwise ((List.pairwise_lt_finRange spans.length).filter fun i =>
      !Walk.seen ((tops spans).foldl (Walk.visit (Forest.below (IsParent spans))) []) i)
    exact sorted.imp_of_mem fun _ below order =>
      ⟨fun top => absurd top (not_mem_tops_of_stranded below), fun _ => order⟩
  · exact fun i top j below => ⟨fun _ => top, fun same =>
      absurd (same.1 top) (not_mem_tops_of_stranded below)⟩

theorem back_of_cycle (cycle : TransGen (IsParent spans) i i)
    (path : ReflTransGen (IsParent spans) i j) : TransGen (IsParent spans) j i := by
  induction path with
  | refl => exact cycle
  | tail _ link ih =>
    obtain ⟨next, first, rest⟩ := TransGen.head'_iff.1 ih
    obtain rfl := isParent_unique spans first link
    obtain same | back := Relation.reflTransGen_iff_eq_or_transGen.1 rest
    · exact same ▸ cycle
    · exact back

theorem mem_stranded_iff_cycle :
    i ∈ stranded spans ↔
      ∃ c, ReflTransGen (IsParent spans) i c ∧ TransGen (IsParent spans) c c := by
  rw [mem_stranded]
  constructor
  · intro no_top
    by_contra none
    -- The links above `i` alone have no cycle, so they end.
    let above (a b : Fin spans.length) := IsParent spans a b ∧ ReflTransGen (IsParent spans) i a
    have forget {a b : Fin spans.length} (path : ReflTransGen above a b) :
        ReflTransGen (IsParent spans) a b := path.lift id fun _ _ => And.left
    have acyclic : Forest.Acyclic above := by
      intro c path
      obtain ⟨next, first, rest⟩ := TransGen.head'_iff.1 path
      exact none ⟨c, first.2, .head' first.1 (forget rest)⟩
    obtain ⟨top, path, ends⟩ := Forest.exists_top acyclic i
    exact no_top top (mem_tops.2 fun j link => ends j ⟨link, forget path⟩) (forget path)
  · rintro ⟨c, path, cycle⟩ t top to_top
    obtain on | on := ReflTransGen.total_of_right_unique (isParent_unique spans) path to_top
    · obtain ⟨next, first, -⟩ := TransGen.head'_iff.1 (back_of_cycle cycle on)
      exact mem_tops.1 top next first
    · obtain rfl | ⟨next, first, -⟩ := on.cases_head
      · obtain ⟨next, first, -⟩ := TransGen.head'_iff.1 cycle
        exact mem_tops.1 top next first
      · exact mem_tops.1 top next first

section Places

variable {k m : Nat} {p q : Place spans.length}

theorem places_inj (hp : (places spans)[k]? = some p) (hq : (places spans)[m]? = some q)
    (same : p.position = q.position) : k = m :=
  Walk.index_of_position (positions_nodup spans) hp hq same

theorem exists_place (i : Fin spans.length) :
    ∃ (k : Nat) (p : Place spans.length), (places spans)[k]? = some p ∧ p.position = i := by
  have member := (positions_perm spans).mem_iff.2 (List.mem_finRange i)
  obtain ⟨p, listed, here⟩ := List.mem_map.1 member
  obtain ⟨k, found⟩ := List.getElem?_of_mem listed
  exact ⟨k, p, found, here⟩

theorem exists_turn (listed : (places spans)[k]? = some p) (top : p.depth = 0) :
    ∃ before after, turns spans = before ++ p.position :: after ∧
      (places spans).take k =
        (before.foldl (Walk.visit (Forest.below (IsParent spans))) []).reverse := by
  obtain ⟨inside, rfl⟩ := List.getElem?_eq_some_iff.1 listed
  have split : (turns spans).foldl (Walk.visit (Forest.below (IsParent spans))) [] =
      ((places spans).drop (k + 1)).reverse ++ (places spans)[k] :: ((places spans).take k).reverse := by
    rw [← List.reverse_inj, ← places_eq_foldl]
    simp
  obtain ⟨before, after, order, earlier⟩ := Walk.exists_visit_of_top split top
  exact ⟨before, after, order, List.reverse_eq_iff.1 earlier⟩

-- What is listed before a place at the top is what the starts before it are above of.
theorem exists_turn_of_earlier (listed : (places spans)[k]? = some p) (top : p.depth = 0) :
    ∃ before after, turns spans = before ++ p.position :: after ∧
      ∀ (m : Nat) (q : Place spans.length), (places spans)[m]? = some q →
        (m < k ↔ ∃ s ∈ before, ReflTransGen (IsParent spans) q.position s) := by
  obtain ⟨before, after, order, earlier⟩ := exists_turn listed top
  refine ⟨before, after, order, fun m q found => ?_⟩
  rw [← seen_visits_iff, Walk.seen_eq_true_iff, ← List.mem_reverse, ← List.map_reverse, ← earlier,
    List.mem_map]
  constructor
  · intro before_k
    exact ⟨q, List.mem_of_getElem? ((List.getElem?_take_of_lt before_k).trans found), rfl⟩
  · rintro ⟨r, member, same⟩
    obtain ⟨t, taken⟩ := List.getElem?_of_mem member
    rw [List.getElem?_take] at taken
    split at taken
    · next before_k => exact places_inj taken found same ▸ before_k
    · cases taken

theorem not_above_of_earlier (hp : (places spans)[k]? = some p) (top : p.depth = 0) (earlier : m < k)
    (hq : (places spans)[m]? = some q) : ¬ ReflTransGen (IsParent spans) p.position q.position := by
  intro path
  obtain ⟨before, after, -, reached⟩ := exists_turn_of_earlier hp top
  obtain ⟨s, member, rest⟩ := (reached m q hq).1 earlier
  exact lt_irrefl k ((reached k p hp).2 ⟨s, member, path.trans rest⟩)

theorem turn_of_later (hp : (places spans)[k]? = some p) (top : p.depth = 0) (later : k < m)
    (hq : (places spans)[m]? = some q) (start : q.position ∈ turns spans) :
    (q.position ∈ tops spans → p.position ∈ tops spans) ∧
      ((p.position ∈ tops spans ↔ q.position ∈ tops spans) →
        Precedes spans p.position q.position) := by
  obtain ⟨before, after, order, reached⟩ := exists_turn_of_earlier hp top
  have sorted := turns_pairwise spans
  rw [order] at start sorted
  obtain first | rest := List.mem_append.1 start
  · exact absurd ((reached m q hq).2 ⟨_, first, .refl⟩) (by omega)
  · obtain same | behind := List.mem_cons.1 rest
    · exact absurd (places_inj hp hq same.symm) (by omega)
    · exact (List.pairwise_cons.1 (List.pairwise_append.1 sorted).2.1).1 _ behind

theorem lt_of_isParent_of_top (hp : (places spans)[k]? = some p) (top : p.depth = 0)
    (hq : (places spans)[m]? = some q) (link : IsParent spans p.position q.position) : k < m := by
  obtain earlier | rfl | later := lt_trichotomy m k
  · exact absurd (.single link) (not_above_of_earlier hp top earlier hq)
  · exact absurd (congrArg Place.position (Option.some.inj (hp.symm.trans hq))) link.1
  · exact later

theorem mem_turns_of_top (listed : (places spans)[k]? = some p) (top : p.depth = 0) :
    p.position ∈ turns spans := by
  obtain ⟨before, after, order, -⟩ := exists_turn listed top
  exact order ▸ List.mem_append_right _ List.mem_cons_self

theorem exists_top_above (listed : (places spans)[k]? = some p) (deep : p.depth ≠ 0) :
    ∃ (m : Nat) (top : Place spans.length), m < k ∧ (places spans)[m]? = some top ∧ top.depth = 0 ∧
      TransGen (IsParent spans) p.position top.position := by
  obtain ⟨d, depth⟩ := Nat.exists_eq_succ_of_ne_zero deep
  induction d generalizing k p with
  | zero =>
    obtain ⟨m, top, earlier, found, link, zero, -⟩ := places_below listed depth
    exact ⟨m, top, earlier, found, zero, .single link⟩
  | succ d ih =>
    obtain ⟨j, upper, earlier, found, link, below, -⟩ := places_below listed depth
    obtain ⟨m, top, before, first, zero, path⟩ := ih found (by omega) below
    exact ⟨m, top, before.trans earlier, first, zero, .head link path⟩

/-- There is a cycle above the span, and it starts before everything else that is above it. -/
def Leads (spans : List Span) (i : Fin spans.length) : Prop :=
  (∃ c, ReflTransGen (IsParent spans) i c ∧ TransGen (IsParent spans) c c) ∧
    ∀ a, TransGen (IsParent spans) i a → a ≠ i → Precedes spans i a

theorem depth_eq_zero_iff (listed : (places spans)[k]? = some p) :
    p.depth = 0 ↔ p.position ∈ tops spans ∨ Leads spans p.position := by
  constructor
  · intro top
    refine (mem_turns_iff.1 (mem_turns_of_top listed top)).imp_right fun below => ?_
    refine ⟨mem_stranded_iff_cycle.1 below, fun a path other => ?_⟩
    obtain ⟨m, q, found, rfl⟩ := exists_place a
    have above := stranded_of_above below path.to_reflTransGen
    -- What is above a place at the top is listed after it, and has its turn after it.
    obtain earlier | rfl | later := lt_trichotomy m k
    · exact absurd path.to_reflTransGen (not_above_of_earlier listed top earlier found)
    · exact absurd (congrArg Place.position (Option.some.inj (found.symm.trans listed))) other
    · exact (turn_of_later listed top later found (mem_turns_iff.2 (.inr above))).2
        (iff_of_false (not_mem_tops_of_stranded below) (not_mem_tops_of_stranded above))
  · intro starts
    by_contra deep
    obtain ⟨m, top, earlier, found, zero, path⟩ := exists_top_above listed deep
    obtain is_top | ⟨cycle, first⟩ := starts
    · obtain ⟨next, link, -⟩ := TransGen.head'_iff.1 path
      exact mem_tops.1 is_top next link
    · have below := mem_stranded_iff_cycle.2 cycle
      have above := stranded_of_above below path.to_reflTransGen
      have before := (turn_of_later found zero earlier listed (mem_turns_iff.2 (.inr below))).2
        (iff_of_false (not_mem_tops_of_stranded above) (not_mem_tops_of_stranded below))
      refine before.asymm (first _ path fun same => ?_)
      exact earlier.ne (places_inj found listed same)

theorem mem_ofSpans (listed : (places spans)[k]? = some p) :
    (⟨spans.get p.position, k, p.depth⟩ : Row) ∈ ofSpans spans :=
  List.mem_of_getElem? (by rw [ofSpans_getElem?, listed, Option.map_some])

/-- A span has its row below its parent's and one level deeper, unless it leads what is below a cycle. Then its
row lies at the top, before that of its parent. -/
theorem below_parent_iff_not_leads (apart : (spans.map (·.id)).Nodup) (other : i ≠ j)
    (named : (spans.get i).parent = some (spans.get j).id) :
    ∃ r ∈ ofSpans spans, ∃ s ∈ ofSpans spans, r.span = spans.get i ∧ s.span = spans.get j ∧
      (s.index < r.index ∧ r.depth = s.depth + 1 ↔ ¬ Leads spans i) ∧
      (r.index < s.index ∧ r.depth = 0 ↔ Leads spans i) := by
  have link : IsParent spans i j := (isParent_iff_of_nodup apart).2 ⟨other, named⟩
  obtain ⟨k, p, hp, rfl⟩ := exists_place i
  obtain ⟨m, q, hq, rfl⟩ := exists_place j
  refine ⟨_, mem_ofSpans hp, _, mem_ofSpans hq, rfl, rfl, ?_⟩
  have inner : p.position ∉ tops spans := fun top => mem_tops.1 top _ link
  have top_iff : p.depth = 0 ↔ Leads spans p.position :=
    (depth_eq_zero_iff hp).trans (or_iff_right inner)
  rw [← top_iff]
  cases depth : p.depth with
  | zero =>
    simp [lt_of_isParent_of_top hp depth hq link]
  | succ d =>
    obtain ⟨t, upper, earlier, found, up, below, -⟩ := places_below hp depth
    obtain rfl := places_inj found hq (isParent_unique spans up link)
    obtain rfl : upper = q := Option.some.inj (found.symm.trans hq)
    simp [earlier, below]

end Places

-- Both `z` and `w` are below the cycle of the other two, and only `z` starts before it.
theorem below_parent_iff_not_leads_twice :
    let span (id parent : String) (start : UInt64) : Span :=
      { (default : Span) with id, parent := some parent, start }
    let spans := [span "x" "y" 2, span "y" "x" 1, span "z" "x" 0, span "w" "x" 7]
    let x : Fin spans.length := ⟨0, by decide⟩
    let z : Fin spans.length := ⟨2, by decide⟩
    let w : Fin spans.length := ⟨3, by decide⟩
    (spans.map (·.id)).Nodup ∧ z ≠ x ∧ w ≠ x ∧
      (spans.get z).parent = some (spans.get x).id ∧ (spans.get w).parent = some (spans.get x).id ∧
      Leads spans z ∧ ¬ Leads spans w := by
  intro span spans x z w
  have apart : (spans.map (·.id)).Nodup := by decide
  have rows : ofSpans spans =
      [⟨spans.get z, 0, 0⟩, ⟨span "y" "x" 1, 1, 0⟩, ⟨spans.get x, 2, 1⟩, ⟨spans.get w, 3, 2⟩] := by
    cbv
  have z_before_x : ∀ r ∈ ofSpans spans, ∀ s ∈ ofSpans spans, r.span.id = "z" → s.span.id = "x" →
      r.index < s.index ∧ r.depth = 0 := by
    rw [rows]
    decide
  have w_below_x : ∀ r ∈ ofSpans spans, ∀ s ∈ ofSpans spans, r.span.id = "w" → s.span.id = "x" →
      s.index < r.index ∧ r.depth = s.depth + 1 := by
    rw [rows]
    decide
  obtain ⟨r, hr, s, hs, is_z, is_x, -, leads⟩ :=
    @below_parent_iff_not_leads spans z x apart (by decide) rfl
  obtain ⟨t, ht, u, hu, is_w, is_x', follows, -⟩ :=
    @below_parent_iff_not_leads spans w x apart (by decide) rfl
  exact ⟨apart, by decide, by decide, rfl, rfl,
    leads.1 (z_before_x r hr s hs (congrArg Span.id is_z) (congrArg Span.id is_x)),
    follows.1 (w_below_x t ht u hu (congrArg Span.id is_w) (congrArg Span.id is_x'))⟩

/-- A span outside of the cycle that its parent is on, and it is listed before its parent. -/
theorem row_before_parent :
    let span (id parent : String) (start : UInt64) : Span :=
      { (default : Span) with id, parent := some parent, start }
    let spans := [span "x" "y" 2, span "y" "x" 1, span "z" "x" 0]
    let names (i j : Fin spans.length) : Prop := (spans.get i).parent = some (spans.get j).id
    (spans.map (·.id)).Nodup ∧ names ⟨2, by decide⟩ ⟨0, by decide⟩ ∧
      ¬ TransGen names ⟨2, by decide⟩ ⟨2, by decide⟩ ∧
      ofSpans spans = [⟨span "z" "x" 0, 0, 0⟩, ⟨span "y" "x" 1, 1, 0⟩, ⟨span "x" "y" 2, 2, 1⟩] ∧
      ¬ ∃ r ∈ ofSpans spans, ∃ s ∈ ofSpans spans, r.span.id = "z" ∧ s.span.id = "x" ∧
        s.index < r.index ∧ r.depth = s.depth + 1 := by
  intro span spans names
  have rows : ofSpans spans =
      [⟨span "z" "x" 0, 0, 0⟩, ⟨span "y" "x" 1, 1, 0⟩, ⟨span "x" "y" 2, 2, 1⟩] := by
    cbv
  refine ⟨by decide, rfl, fun cycle => ?_, rows, ?_⟩
  · obtain ⟨i, -, link⟩ := TransGen.tail'_iff.1 cycle
    have none : ∀ i : Fin spans.length, (spans.get i).parent ≠ some "z" := by decide
    exact none i link
  · rw [rows]
    decide

end Waterfall.Row
