import Waterfall.Proofs.SpanTree
import Waterfall.Trace

set_option autoImplicit false

namespace Waterfall

theorem Micros.add_zero_left (n : UInt64) : Micros.add 0 n = n := by
  apply UInt64.toNat_inj.1
  have := n.toNat_lt
  simp only [Micros.toNat_add, Micros.limit, UInt64.size, UInt64.toNat_zero]
  omega

namespace Timing

def Positive (duration : Option UInt64) : Prop :=
  ∀ n ∈ duration, 1 ≤ n

theorem one_le_atLeastOne (n : UInt64) : 1 ≤ atLeastOne n := by
  unfold atLeastOne
  split
  · exact UInt64.le_refl 1
  · next other =>
    have : n.toNat ≠ 0 := fun zero => other (UInt64.toNat_inj.1 zero)
    rw [UInt64.le_iff_toNat_le, UInt64.toNat_one]
    omega

theorem positive_measured (start finish : UInt64) : Positive (measured? start finish) := by
  intro n member
  unfold measured? at member
  split at member
  · cases member
  · cases member
    exact one_le_atLeastOne _

theorem positive_reported (ms : Option Float) : Positive (ms.bind microsOfMillis?) := by
  intro n member
  obtain ⟨ms, -, reported⟩ := Option.bind_eq_some_iff.1 member
  unfold microsOfMillis? at reported
  split at reported
  · split at reported
    · cases reported
    · cases reported
      exact one_le_atLeastOne _
  · cases reported

theorem Positive.or {a b : Option UInt64} (first : Positive a) (second : Positive b) :
    Positive (a.or b) := by
  intro n member
  obtain here | ⟨-, there⟩ := Option.or_eq_some_iff.1 member
  · exact first n here
  · exact second n there

theorem Positive.le_getD {a : Option UInt64} (positive : Positive a) {b : UInt64} (h : 1 ≤ b) :
    1 ≤ a.getD b := by
  cases a with
  | none => exact h
  | some n => exact positive n rfl

theorem one_le_root (d : Document) : 1 ≤ (root d).duration :=
  (positive_measured _ _).le_getD (UInt64.le_refl 1)

theorem one_le_enrich (origin : Origin) (e : Enrichment) : 1 ≤ (enrich origin e).duration := by
  have given : Positive (e.durationUs.map atLeastOne) := by
    intro n member
    obtain ⟨us, -, rfl⟩ := Option.map_eq_some_iff.1 member
    exact one_le_atLeastOne us
  exact ((given.or (positive_reported _)).or (positive_measured _ _)).le_getD (UInt64.le_refl 1)

theorem one_le_phase (origin : Origin) (total : UInt64) (p : Phase) :
    1 ≤ (phase origin total p).duration :=
  ((positive_measured _ _).or (positive_reported _)).le_getD (one_le_atLeastOne _)

theorem one_le_signals (origin : Origin) {around : Timing} (h : 1 ≤ around.duration)
    (b : SignalBlock) : 1 ≤ (signals origin around b).duration :=
  ((positive_measured _ _).or (positive_reported _)).le_getD h

theorem one_le_inTurn {share start : UInt64} (h : 1 ≤ share) {signals : List Signal} {t : Timing}
    (member : t ∈ inTurn share start signals) : 1 ≤ t.duration := by
  induction signals generalizing start with
  | nil => cases member
  | cons s rest ih =>
    obtain rfl | later := List.mem_cons.1 member
    · exact (positive_reported _).le_getD h
    · exact ih later

theorem one_le_timing (d : Document) (part : Part) : 1 ≤ (part.timing d).duration := by
  cases part with
  | root => exact one_le_root d
  | enrich e => exact one_le_enrich _ e
  | phase _ p => exact one_le_phase _ _ p
  | signals _ p b => exact one_le_signals _ (one_le_phase _ _ p) b
  | signal _ p b k _ =>
    -- One of the turns, or the block where there is no such turn.
    simp only [Part.timing]
    cases turn : (inTurn _ _ b.signals)[k]? with
    | none => exact one_le_signals _ (one_le_phase _ _ p) b
    | some t => exact one_le_inTurn (one_le_atLeastOne _) (List.mem_of_getElem? turn)
  | evaluation _ p _ => exact one_le_atLeastOne _

end Timing

namespace Span

variable {root s : Span} {spans inner : List Span}

theorem foldl_later_le_iff (times : List UInt64) (first bound : UInt64) :
    times.foldl (fun a b => if a < b then b else a) first ≤ bound ↔
      first ≤ bound ∧ ∀ t ∈ times, t ≤ bound := by
  induction times generalizing first with
  | nil => simp
  | cons t rest ih =>
    rw [List.foldl_cons, ih, List.forall_mem_cons, ← and_assoc]
    refine and_congr_left' ?_
    split
    · next less => exact ⟨fun h => ⟨UInt64.le_trans (UInt64.le_of_lt less) h, h⟩, And.right⟩
    · next not_less =>
      exact ⟨fun h => ⟨h, UInt64.le_trans (UInt64.not_lt.1 not_less) h⟩, And.left⟩

theorem latest_le_iff {bound : UInt64} : latest spans ≤ bound ↔ ∀ s ∈ spans, s.finish ≤ bound := by
  rw [latest, foldl_later_le_iff, List.forall_mem_map]
  exact and_iff_right (UInt64.zero_le)

theorem finish_le_latest (member : s ∈ spans) : s.finish ≤ latest spans :=
  latest_le_iff.1 (UInt64.le_refl _) s member

theorem finish_of_start (h : s.start = 0) : s.finish = s.duration := by
  rw [finish, h, Micros.add_zero_left]

theorem cover_duration (root : Span) (inner : List Span) :
    root.duration ≤ (cover root inner).duration ∧ latest inner ≤ (cover root inner).duration := by
  unfold cover
  split
  · next less => exact ⟨UInt64.le_of_lt less, UInt64.le_refl _⟩
  · next not_less => exact ⟨UInt64.le_refl _, UInt64.not_lt.1 not_less⟩

theorem cover_start (root : Span) (inner : List Span) : (cover root inner).start = root.start := by
  unfold cover
  split <;> rfl

theorem duration_span (d : Document) (id parent : String) (t : Timing) (part : Part) :
    (part.span d id parent t).duration = t.duration := by
  cases part <;> rfl

theorem one_le_duration_of_shown {d : Document} {part : Part} (other : part ≠ .root)
    (shown : Shown d part s) : 1 ≤ s.duration := by
  obtain ⟨id, parent, t, rfl, timed⟩ := shown.shows
  rw [duration_span, timed other]
  exact Timing.one_le_timing d part

theorem ofDocument_eq_cover (d : Document) :
    ∃ id inner, ofDocument d = cover (Span.root id (Timing.root d) d) inner :: inner :=
  ⟨_, _, rfl⟩

theorem one_le_duration {d : Document} (member : s ∈ ofDocument d) : 1 ≤ s.duration := by
  obtain ⟨i, found⟩ := List.getElem?_of_mem member
  cases i with
  | zero =>
    obtain ⟨id, inner, covered⟩ := ofDocument_eq_cover d
    rw [covered] at found
    cases found
    have kept := (cover_duration (Span.root id (Timing.root d) d) inner).1
    exact UInt64.le_trans (Timing.one_le_root d) kept
  | succ i =>
    obtain ⟨part, hp⟩ := getElem?_parts found
    obtain ⟨up, link⟩ := exists_parent hp
    have other : part ≠ .root := by
      rintro rfl
      cases link
    exact one_le_duration_of_shown other (shown_of_getElem? hp found)

theorem finish_le_cover (start : root.start = 0) (member : s ∈ cover root inner :: inner) :
    s.finish ≤ (cover root inner).finish := by
  rw [finish_of_start ((cover_start root inner).trans start)]
  obtain rfl | inside := List.mem_cons.1 member
  · rw [finish_of_start ((cover_start root inner).trans start)]
    exact UInt64.le_refl _
  · exact UInt64.le_trans (finish_le_latest inside) (cover_duration root inner).2

theorem exists_root (d : Document) :
    ∃ root inner, ofDocument d = root :: inner ∧ root.service = .root ∧ root.start = 0 ∧
      ∀ s ∈ root :: inner, s.finish ≤ root.finish := by
  obtain ⟨id, inner, covered⟩ := ofDocument_eq_cover d
  obtain ⟨t, shows⟩ := cover_eq (Timing.root d) id d inner
  exact ⟨_, inner, covered, by rw [shows]; rfl, cover_start _ _, fun s => finish_le_cover rfl⟩

end Span

/-- No span is empty, and the root starts with the trace, ends after everything else and is as long as the trace. -/
theorem Trace.ofDocument_covered (d : Document) :
    (∀ s ∈ Span.ofDocument d, 1 ≤ s.duration) ∧
      ∃ root inner, Span.ofDocument d = root :: inner ∧ root.service = .root ∧ root.start = 0 ∧
        (∀ s ∈ Span.ofDocument d, s.finish ≤ root.finish) ∧
        (ofDocument d).extent = root.duration := by
  obtain ⟨root, inner, listed, service, start, below⟩ := Span.exists_root d
  have extent : (ofDocument d).extent = Span.latest (root :: inner) := by
    rw [← listed]
    rfl
  refine ⟨fun s => Span.one_le_duration, root, inner, listed, service, start, listed ▸ below, ?_⟩
  rw [extent, ← Span.finish_of_start start]
  exact UInt64.le_antisymm (Span.latest_le_iff.2 below) (Span.finish_le_latest List.mem_cons_self)

end Waterfall
