import Waterfall.Proofs.Outline

set_option autoImplicit false

namespace Waterfall

def Service.depth : Service → Nat
  | .root => 0
  | .enrich | .global | .project | .catalog | .phase => 1
  | .signals | .evaluation => 2
  | .signal => 3

theorem Service.depth_ofPhase (name : String) : (Service.ofPhase name).depth = 1 := by
  unfold ofPhase
  split_ifs <;> rfl

namespace Part

def service : Part → Service
  | root => .root
  | enrich _ => .enrich
  | phase _ p => .ofPhase p.name
  | signals _ _ _ => .signals
  | signal _ _ _ _ _ => .signal
  | evaluation _ _ _ => .evaluation

def depth : Part → Nat
  | root => 0
  | enrich _ | phase _ _ => 1
  | signals _ _ _ | evaluation _ _ _ => 2
  | signal _ _ _ _ _ => 3

theorem depth_service (part : Part) : part.service.depth = part.depth := by
  cases part with
  | phase _ p => exact Service.depth_ofPhase p.name
  | _ => rfl

-- A part, what it belongs to, and so on up to the root.
def line : Part → List Part
  | root => [root]
  | enrich e => [enrich e, root]
  | phase i p => [phase i p, root]
  | signals i p b => [signals i p b, phase i p, root]
  | signal i p b k s => [signal i p b k s, signals i p b, phase i p, root]
  | evaluation i p e => [evaluation i p e, phase i p, root]

theorem line_eq {part up : Part} (h : part.parent = some up) : part.line = part :: up.line := by
  cases part <;> cases h <;> rfl

theorem depth_eq {part up : Part} (h : part.parent = some up) : part.depth = up.depth + 1 := by
  cases part <;> cases h <;> rfl

theorem self_mem_line (part : Part) : part ∈ part.line := by
  cases part <;> exact List.mem_cons_self

theorem root_mem_line (part : Part) : root ∈ part.line := by
  cases part <;> simp [line]

theorem line_subset {part x : Part} (above : x ∈ part.line) : x.line ⊆ part.line := by
  cases part <;> simp only [line, List.mem_cons, List.not_mem_nil, or_false] at above <;>
    rcases above with rfl | rfl | rfl | rfl <;> simp [line]

theorem depth_le {part x : Part} (above : x ∈ part.line) : x.depth ≤ part.depth := by
  cases part <;> simp only [line, List.mem_cons, List.not_mem_nil, or_false] at above <;>
    rcases above with rfl | rfl | rfl | rfl <;> simp [depth]

-- `next` belongs to `part` or to something that `part` belongs to.
def Follows (part next : Part) : Prop :=
  ∃ up ∈ part.line, next.parent = some up

theorem follows_of_root (part : Part) {next : Part} (h : next.parent = some root) :
    Follows part next :=
  ⟨root, part.root_mem_line, h⟩

-- Every part comes after all that it belongs to, with only deeper parts between them.
theorem exists_listed_of_isChain {parts : List Part} (chain : parts.IsChain Follows)
    (first : parts.head? = some root) {i : Nat} {part x : Part} (h : parts[i]? = some part)
    (above : x ∈ part.line) :
    ∃ j ≤ i, parts[j]? = some x ∧
      ∀ k y, j < k → k ≤ i → parts[k]? = some y → x.depth < y.depth := by
  induction i generalizing part with
  | zero =>
    rw [← List.head?_eq_getElem?, first] at h
    cases h
    rw [line, List.mem_singleton] at above
    exact ⟨0, le_rfl, by rw [← List.head?_eq_getElem?, first, above], by omega⟩
  | succ i ih =>
    obtain ⟨inside, rfl⟩ := List.getElem?_eq_some_iff.1 h
    -- What the part belongs to is on the line of the part before it, where the search goes on.
    obtain ⟨up, up_above, link⟩ := List.isChain_iff_getElem.1 chain i inside
    rw [line_eq link, List.mem_cons] at above
    obtain rfl | above := above
    · exact ⟨i + 1, le_rfl, h, by omega⟩
    · have before : parts[i]? = some parts[i] := List.getElem?_eq_getElem (by omega)
      obtain ⟨j, earlier, found, between⟩ := ih before (line_subset up_above above)
      refine ⟨j, by omega, found, fun k y after until_next member => ?_⟩
      obtain earlier_k | rfl : k ≤ i ∨ k = i + 1 := by omega
      · exact between k y after earlier_k member
      · obtain rfl := Option.some.inj (h.symm.trans member)
        have := depth_le above
        have := depth_eq link
        omega

end Part

theorem Phase.phase_mem_line {i : Nat} {p : Phase} {part : Part} (member : part ∈ p.parts i) :
    .phase i p ∈ part.line := by
  rw [parts, List.mem_cons, List.mem_append] at member
  obtain rfl | member | member := member
  · exact Part.self_mem_line _
  · cases block : p.signals with
    | none => simp [block] at member
    | some b =>
      simp only [block, Option.elim, SignalBlock.parts, List.mem_cons, List.mem_map] at member
      obtain rfl | ⟨⟨s, k⟩, -, rfl⟩ := member <;> simp [Part.line]
  · cases evaluation : p.evaluation with
    | none => simp [evaluation] at member
    | some e =>
      simp only [evaluation, Option.elim, List.mem_singleton] at member
      subst member
      simp [Part.line]

theorem SignalBlock.isChain_parts (i : Nat) (p : Phase) (b : SignalBlock) :
    (b.parts i p).IsChain Part.Follows := by
  refine List.isChain_cons.2 ⟨?_, List.Pairwise.isChain ?_⟩
  · intro next head
    obtain ⟨⟨s, k⟩, -, rfl⟩ := List.mem_map.1 (List.mem_of_mem_head? head)
    exact ⟨_, Part.self_mem_line _, rfl⟩
  · rw [List.pairwise_map]
    exact List.pairwise_of_forall fun s t => ⟨.signals i p b, by simp [Part.line], rfl⟩

theorem Phase.isChain_parts (i : Nat) (p : Phase) : (p.parts i).IsChain Part.Follows := by
  refine List.isChain_cons.2 ⟨?_, List.isChain_append.2 ⟨?_, ?_, ?_⟩⟩
  · intro next head
    have member := List.mem_of_mem_head? head
    cases block : p.signals with
    | none =>
      cases evaluation : p.evaluation with
      | none => simp [block, evaluation] at member
      | some e =>
        simp only [block, evaluation, Option.elim, List.nil_append, List.mem_singleton] at member
        subst member
        exact ⟨_, Part.self_mem_line _, rfl⟩
    | some b =>
      simp only [block, Option.elim, SignalBlock.parts, List.cons_append, List.head?_cons,
        Option.mem_some_iff] at head
      subst head
      exact ⟨_, Part.self_mem_line _, rfl⟩
  · cases p.signals with
    | none => exact .nil
    | some b => exact b.isChain_parts i p
  · cases p.evaluation <;> simp
  · intro part last next head
    have member := List.mem_of_mem_getLast? last
    cases evaluation : p.evaluation with
    | none => simp [evaluation] at head
    | some e =>
      simp only [evaluation, Option.elim, List.head?_cons, Option.mem_some_iff] at head
      subst head
      have inside : part ∈ p.parts i := List.mem_cons_of_mem _ (List.mem_append_left _ member)
      exact ⟨.phase i p, phase_mem_line inside, rfl⟩

theorem Document.parent_of_head? {i : Nat} {phases : List Phase} {next : Part}
    (head : next ∈ ((phases.zipIdx i).flatMap fun (p, i) => p.parts i).head?) :
    next.parent = some .root := by
  cases phases with
  | nil => simp at head
  | cons p rest =>
    simp only [List.zipIdx_cons, List.flatMap_cons, Phase.parts, List.cons_append, List.head?_cons,
      Option.mem_some_iff] at head
    exact head ▸ rfl

theorem Document.isChain_phases (i : Nat) (phases : List Phase) :
    ((phases.zipIdx i).flatMap fun (p, i) => p.parts i).IsChain Part.Follows := by
  induction phases generalizing i with
  | nil => exact .nil
  | cons p rest ih =>
    rw [List.zipIdx_cons, List.flatMap_cons, List.isChain_append]
    exact ⟨p.isChain_parts i, ih (i + 1),
      fun part _ next head => part.follows_of_root (parent_of_head? head)⟩

theorem Document.isChain_parts (d : Document) : d.parts.IsChain Part.Follows := by
  have phases := isChain_phases 0 d.phases
  unfold parts
  cases d.enrich with
  | none =>
    exact List.isChain_cons.2
      ⟨fun next head => Part.root.follows_of_root (parent_of_head? head), phases⟩
  | some e =>
    have enriched := List.isChain_cons.2
      ⟨fun next head => (Part.enrich e).follows_of_root (parent_of_head? head), phases⟩
    refine List.isChain_cons.2 ⟨fun next head => ?_, enriched⟩
    simp only [Option.elim, List.cons_append, List.head?_cons, Option.mem_some_iff] at head
    exact Part.root.follows_of_root (head ▸ rfl)

namespace Span

theorem map_id_eachSignal (block : String) (k : Nat) {ids : List String} {turns : List Timing}
    {signals : List Signal} (ids_length : ids.length = signals.length)
    (turns_length : turns.length = signals.length) :
    (eachSignal block k ids turns signals).map (·.id) = ids := by
  induction signals generalizing k ids turns with
  | nil => rw [List.length_eq_zero_iff.1 ids_length]; rfl
  | cons s rest ih =>
    cases ids with
    | nil => simp at ids_length
    | cons id ids =>
      cases turns with
      | nil => simp at turns_length
      | cons t turns =>
        rw [List.length_cons, List.length_cons, Nat.add_right_cancel_iff] at ids_length turns_length
        rw [eachSignal, List.map_cons, ih (k + 1) ids_length turns_length]
        rfl

theorem map_id_ofPhase (origin : Origin) (total : UInt64) (root : String) (i : Nat)
    {ids : PhaseIds} {p : Phase} (fits : ids.Fits p) :
    (ofPhase origin total root i ids p).map (·.id) = ids.all := by
  have signals : (ofSignals origin ids (Timing.phase origin total p) p.signals).map (·.id) =
      ids.signals.elim [] fun own => own.1 :: own.2 := by
    have same := fits.signals
    cases block : p.signals <;> cases claimed : ids.signals <;> simp [block, claimed] at same
    · rfl
    · next b own =>
      simp only [ofSignals, claimed, List.map_cons, Option.elim]
      rw [map_id_eachSignal _ _ same (Timing.length_inTurn _ _ _)]
      rfl
  have evaluation : (ofEvaluation ids (Timing.phase origin total p) p.status p.evaluation).map
      (·.id) = ids.evaluation.toList := by
    have same := fits.evaluation
    cases recorded : p.evaluation <;> cases claimed : ids.evaluation <;>
      simp [recorded, claimed] at same
    · rfl
    · simp only [ofEvaluation, claimed, List.map_cons, List.map_nil, Option.toList]
      rfl
  rw [ofPhase, List.map_cons, List.map_append, signals, evaluation]
  rfl

theorem map_id_ofPhases (origin : Origin) (total : UInt64) (root : String) (i : Nat)
    {ids : List PhaseIds} {phases : List Phase} (fits : List.Forall₂ PhaseIds.Fits ids phases) :
    (ofPhases origin total root i ids phases).map (·.id) = ids.flatMap PhaseIds.all := by
  induction fits generalizing i with
  | nil => rfl
  | cons one _ ih =>
    rw [ofPhases, List.map_append, map_id_ofPhase origin total root i one, ih (i + 1),
      List.flatMap_cons]

theorem map_id_ofDocument (d : Document) :
    (ofDocument d).map (·.id) = (DocumentIds.ofDocument d).all := by
  have enrich (origin : Origin) (root : String) :
      (ofEnrich origin root (DocumentIds.ofDocument d).enrich d.enrich).map (·.id) =
        (DocumentIds.ofDocument d).enrich.toList := by
    have same := DocumentIds.isSome_enrich d
    cases recorded : d.enrich <;> cases claimed : (DocumentIds.ofDocument d).enrich <;>
      simp [recorded, claimed] at same
    · rfl
    · rfl
  unfold ofDocument
  simp only [List.map_cons, List.map_append, enrich,
    map_id_ofPhases _ _ _ 0 (DocumentIds.fits_phases d)]
  rw [DocumentIds.all]
  congr 1
  unfold cover
  split <;> rfl

theorem ids_nodup (d : Document) : ((ofDocument d).map (·.id)).Nodup :=
  map_id_ofDocument d ▸ DocumentIds.all_nodup d

end Span

def Phase.spanCount (p : Phase) : Nat :=
  1 + (p.signals.elim 0 fun b => 1 + b.signals.length) + if p.evaluation.isSome then 1 else 0

theorem Phase.length_parts (i : Nat) (p : Phase) : (p.parts i).length = p.spanCount := by
  cases block : p.signals <;> cases evaluation : p.evaluation <;>
    simp [parts, SignalBlock.parts, spanCount, block, evaluation] <;> omega

theorem Document.length_phases (i : Nat) (phases : List Phase) :
    ((phases.zipIdx i).flatMap fun (p, i) => p.parts i).length =
      (phases.map Phase.spanCount).sum := by
  induction phases generalizing i with
  | nil => rfl
  | cons p rest ih =>
    rw [List.zipIdx_cons, List.flatMap_cons, List.length_append, ih (i + 1), p.length_parts i,
      List.map_cons, List.sum_cons]

theorem Document.length_parts (d : Document) :
    d.parts.length =
      1 + (if d.enrich.isSome then 1 else 0) + (d.phases.map Phase.spanCount).sum := by
  rw [parts, List.length_cons, List.length_append, length_phases]
  cases d.enrich <;> simp <;> omega

namespace Span

variable {d : Document} {i : Nat} {part up : Part} {s : Span}

theorem shown_of_getElem? (hp : d.parts[i]? = some part) (hs : (ofDocument d)[i]? = some s) :
    Shown d part s := by
  obtain ⟨part_inside, rfl⟩ := List.getElem?_eq_some_iff.1 hp
  obtain ⟨span_inside, rfl⟩ := List.getElem?_eq_some_iff.1 hs
  exact (List.forall₂_iff_get.1 (shown_ofDocument d)).2 i part_inside span_inside

theorem service_eq (shown : Shown d part s) : s.service = part.service := by
  obtain ⟨id, parent, t, rfl, -⟩ := shown.shows
  cases part <;> rfl

theorem map_service (d : Document) :
    (ofDocument d).map (·.service) = d.parts.map Part.service := by
  have shown := shown_ofDocument d
  generalize d.parts = parts, ofDocument d = spans at shown ⊢
  induction shown with
  | nil => rfl
  | cons one _ ih => rw [List.map_cons, List.map_cons, service_eq one, ih]

theorem getElem?_parts (hs : (ofDocument d)[i]? = some s) : ∃ part, d.parts[i]? = some part := by
  have inside := (List.getElem?_eq_some_iff.1 hs).1
  rw [← (shown_ofDocument d).length_eq] at inside
  exact ⟨_, List.getElem?_eq_getElem inside⟩

-- The parent of a span shows what the part of the span belongs to. Between the two only deeper
-- parts are shown.
theorem exists_upper (hp : d.parts[i]? = some part) (link : part.parent = some up)
    (hs : (ofDocument d)[i]? = some s) :
    ∃ j upper, j < i ∧ d.parts[j]? = some up ∧ (ofDocument d)[j]? = some upper ∧
      s.parent = some upper.id ∧
      ∀ k y, j < k → k < i → d.parts[k]? = some y → up.depth < y.depth := by
  have above : up ∈ part.line := by
    rw [Part.line_eq link]
    exact List.mem_cons_of_mem _ up.self_mem_line
  obtain ⟨j, le, found, between⟩ := Part.exists_listed_of_isChain d.isChain_parts rfl hp above
  have earlier : j < i := by
    obtain less | rfl := Nat.lt_or_eq_of_le le
    · exact less
    · have same := Option.some.inj (hp.symm.trans found)
      have := Part.depth_eq (same ▸ link)
      omega
  have inside : j < (ofDocument d).length :=
    earlier.trans (List.getElem?_eq_some_iff.1 hs).1
  have listed : (ofDocument d)[j]? = some (ofDocument d)[j] := List.getElem?_eq_getElem inside
  refine ⟨j, _, earlier, found, listed, ?_, fun k y after before => between k y after before.le⟩
  rw [(shown_of_getElem? hp hs).parent, link, Option.bind_some, (shown_of_getElem? found listed).id]

theorem exists_parent (hp : d.parts[i + 1]? = some part) : ∃ up, part.parent = some up := by
  obtain ⟨inside, rfl⟩ := List.getElem?_eq_some_iff.1 hp
  obtain ⟨up, -, link⟩ := List.isChain_iff_getElem.1 d.isChain_parts i inside
  exact ⟨up, link⟩

theorem ofDocument_tree (d : Document) :
    ((ofDocument d).map (·.id)).Nodup ∧
      (∃ root inner, ofDocument d = root :: inner ∧ root.parent = none ∧ root.service = .root ∧
        ∀ s ∈ inner, s.parent ≠ none ∧ s.service ≠ .root) ∧
      List.Forall₂ (Part.Shows d) d.parts (ofDocument d) ∧
      (ofDocument d).map (·.service) = d.parts.map Part.service ∧
      (∀ (i : Nat) (part up : Part) (s : Span), d.parts[i]? = some part →
        part.parent = some up → (ofDocument d)[i]? = some s →
        ∃ (j : Nat) (upper : Span), j < i ∧ d.parts[j]? = some up ∧
          (ofDocument d)[j]? = some upper ∧ s.parent = some upper.id) ∧
      (ofDocument d).length =
        1 + (if d.enrich.isSome then 1 else 0) + (d.phases.map Phase.spanCount).sum := by
  refine ⟨ids_nodup d, ⟨_, _, rfl, ?_, ?_, fun s member => ?_⟩, ?_, map_service d, ?_, ?_⟩
  · exact (shown_of_getElem? (i := 0) rfl rfl).parent
  · exact service_eq (shown_of_getElem? (i := 0) (show d.parts[0]? = some .root from rfl) rfl)
  · obtain ⟨i, hs⟩ := List.getElem?_of_mem member
    rw [← List.getElem?_cons_succ] at hs
    obtain ⟨part, hp⟩ := getElem?_parts hs
    obtain ⟨up, link⟩ := exists_parent hp
    obtain ⟨-, upper, -, -, -, parent, -⟩ := exists_upper hp link hs
    -- A root lies at depth zero, and a part that belongs to another does not.
    refine ⟨by simp [parent], fun is_root => ?_⟩
    have top := part.depth_service
    rw [← service_eq (shown_of_getElem? hp hs), is_root, Part.depth_eq link] at top
    cases top
  · refine (shown_ofDocument d).imp fun part s shown => ?_
    obtain ⟨id, parent, t, shows, -⟩ := shown.shows
    exact ⟨id, parent, t, shows⟩
  · intro i part up s hp link hs
    obtain ⟨j, upper, earlier, found, listed, parent, -⟩ := exists_upper hp link hs
    exact ⟨j, upper, earlier, found, listed, parent⟩
  · rw [← (shown_ofDocument d).length_eq, d.length_parts]

end Span

end Waterfall
