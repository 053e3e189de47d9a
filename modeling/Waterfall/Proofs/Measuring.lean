import Waterfall.Proofs.Coverage
import Waterfall.Proofs.Timings

set_option autoImplicit false

namespace Waterfall

namespace Part

def times? (d : Document) : Part → Option (UInt64 × UInt64)
  | root => some (d.start, d.finish)
  | enrich e => some (e.start, e.finish)
  | phase _ p => some (p.start, p.finish)
  | signals _ _ b => some (b.start, b.finish)
  | signal _ _ _ _ _ => none
  | evaluation _ _ _ => none

def reported? : Part → Option UInt64
  | root => none
  | enrich e => (e.durationUs.map Timing.atLeastOne).or (e.durationMs.bind Timing.microsOfMillis?)
  | phase _ p => p.durationMs.bind Timing.microsOfMillis?
  | signals _ _ b => b.durationMs.bind Timing.microsOfMillis?
  | signal _ _ _ _ g => g.durationMs.bind Timing.microsOfMillis?
  | evaluation _ _ _ => none

/-- The span starts at the timestamp of its part, and lasts as long as the timestamps or the report
of the part say. -/
def Measured (d : Document) (part : Part) (s : Span) : Prop :=
  ∃ start finish, part.times? d = some (start, finish) ∧
    Timing.offset? (.ofDocument d) start = some s.start ∧
    (Timing.measured? start finish = some s.duration ∨ part.reported? = some s.duration)

/-- The span is not marked, but its start is that of its turn, or its end that of another span. -/
def Unmarked (d : Document) : Part → Span → Prop
  | signal i p b k g, s => (signal i p b k g).reported? = some s.duration
  | root, s => ∃ n ∈ Timing.measured? d.start d.finish,
    n < s.duration ∧ s.duration = Span.latest (Span.ofDocument d).tail
  | _, _ => False

end Part

namespace Timing

theorem approximate_orElse_iff {start duration : Option UInt64} {a b : UInt64} :
    (orElse start duration a b).approximate = false ↔
      start = some (orElse start duration a b).start ∧
        duration = some (orElse start duration a b).duration := by
  cases start <;> cases duration <;> simp [orElse]

theorem or_eq_some_getD_iff {a b : Option UInt64} {c : UInt64} :
    a.or b = some ((a.or b).getD c) ↔
      a = some ((a.or b).getD c) ∨ b = some ((a.or b).getD c) := by
  cases a <;> cases b <;> simp

theorem exists_turn {share start : UInt64} {signals : List Signal} {k : ℕ} {g : Signal}
    (here : signals[k]? = some g) :
    ∃ t, (inTurn share start signals)[k]? = some t ∧
      (t.approximate = false ↔ g.durationMs.bind microsOfMillis? = some t.duration) := by
  induction signals generalizing start k with
  | nil => cases here
  | cons other rest ih =>
    cases k with
    | zero =>
      cases here
      refine ⟨_, rfl, ?_⟩
      cases g.durationMs.bind microsOfMillis? <;> simp
    | succ k => exact ih here

theorem offset?_origin {d : Document} (known : d.start ≠ 0) :
    offset? (.ofDocument d) d.start = some 0 := by
  have origin : Origin.ofDocument d = d.start := if_pos (UInt64.pos_iff_ne_zero.2 known)
  rw [offset?, if_neg known, origin, Nat.sub_self]
  decide +kernel

end Timing

namespace Span

variable {d : Document} {part : Part} {s : Span}

theorem approximate_iff_measured {start finish a b : UInt64} {known : Option UInt64}
    (times : part.times? d = some (start, finish))
    (timed : s.timing = .orElse (Timing.offset? (.ofDocument d) start) known a b)
    (knows : known = some (known.getD b) ↔ Timing.measured? start finish = some (known.getD b) ∨
      part.reported? = some (known.getD b)) :
    s.approximate = false ↔ part.Measured d s := by
  have flag : s.approximate = (Timing.orElse _ known a b).approximate := congrArg Timing.approximate timed
  have began : s.start = (Timing.orElse _ known a b).start := congrArg Timing.start timed
  have lasts : s.duration = known.getD b := congrArg Timing.duration timed
  rw [flag, Timing.approximate_orElse_iff, ← began]
  change _ ∧ known = some (known.getD b) ↔ _
  rw [knows, ← lasts]
  simp [Part.Measured, times]

theorem root_of_mem_zip (here : (Part.root, s) ∈ d.parts.zip (ofDocument d)) :
    ∃ id inner, ofDocument d = s :: inner ∧ s = cover (.root id (Timing.root d) d) inner := by
  obtain ⟨i, hp, hs⟩ := mem_zip_iff.1 here
  cases i with
  | zero =>
    obtain ⟨id, inner, listed⟩ := ofDocument_eq_cover d
    rw [listed] at hs
    cases hs
    exact ⟨id, inner, listed, rfl⟩
  | succ i =>
    obtain ⟨up, link⟩ := exists_parent hp
    cases link

theorem root_measured_iff (start : s.start = 0) :
    Part.root.Measured d s ↔ Timing.measured? d.start d.finish = some s.duration := by
  constructor
  · rintro ⟨_, _, ⟨⟩, -, measured | reported⟩
    · exact measured
    · cases reported
  · intro measured
    have known : d.start ≠ 0 := by
      intro zero
      simp [Timing.measured?, zero] at measured
    exact ⟨_, _, rfl, start ▸ Timing.offset?_origin known, .inl measured⟩

theorem root_unflagged_iff (here : (Part.root, s) ∈ d.parts.zip (ofDocument d)) :
    (s.approximate = false ↔ Part.root.Measured d s ∨ Part.root.Unmarked d s) ∧
      ¬ (Part.root.Measured d s ∧ Part.root.Unmarked d s) := by
  obtain ⟨id, inner, listed, covers⟩ := root_of_mem_zip here
  have start : s.start = 0 := covers ▸ cover_start _ inner
  have flag : s.approximate = (Timing.measured? d.start d.finish).isNone := by
    rw [covers, cover]
    split <;> rfl
  have lasts : s.duration = if (Timing.root d).duration < latest inner then latest inner
      else (Timing.root d).duration := by
    rw [covers, cover, apply_ite Span.duration]
    rfl
  rw [root_measured_iff start, flag]
  simp only [Part.Unmarked, listed, List.tail_cons, Option.mem_def]
  cases known : Timing.measured? d.start d.finish with
  | none => simp
  | some n =>
    have own : (Timing.root d).duration = n := by simp [Timing.root, Timing.orElse, known]
    rw [own] at lasts
    by_cases longer : n < latest inner
    · rw [if_pos longer] at lasts
      have other : n ≠ latest inner := UInt64.ne_of_lt longer
      simp [lasts, longer, other]
    · rw [if_neg longer] at lasts
      simp [lasts]

theorem unflagged_iff (here : (part, s) ∈ d.parts.zip (ofDocument d)) :
    (s.approximate = false ↔ part.Measured d s ∨ part.Unmarked d s) ∧
      ¬ (part.Measured d s ∧ part.Unmarked d s) := by
  cases part with
  | root => exact root_unflagged_iff here
  | enrich e =>
    have measured : s.approximate = false ↔ (Part.enrich e).Measured d s :=
      approximate_iff_measured rfl (timing_eq here nofun) (Timing.or_eq_some_getD_iff.trans or_comm)
    simpa [Part.Unmarked] using measured
  | phase i p =>
    have measured : s.approximate = false ↔ (Part.phase i p).Measured d s :=
      approximate_iff_measured rfl (timing_eq here nofun) Timing.or_eq_some_getD_iff
    simpa [Part.Unmarked] using measured
  | signals i p b =>
    have measured : s.approximate = false ↔ (Part.signals i p b).Measured d s :=
      approximate_iff_measured rfl (timing_eq here nofun) Timing.or_eq_some_getD_iff
    simpa [Part.Unmarked] using measured
  | signal i p b k g =>
    obtain ⟨-, -, found⟩ : (Part.signal i p b k g).Of d :=
      Document.mem_parts_iff.1 (List.of_mem_zip here).1
    obtain ⟨t, turn, reported⟩ := Timing.exists_turn found
    have timed : s.timing = t := by
      rw [timing_eq here nofun]
      exact Option.getD_eq_iff.2 (.inl turn)
    rw [← timed] at reported
    have unmeasured : ¬ (Part.signal i p b k g).Measured d s := by simp [Part.Measured, Part.times?]
    exact ⟨reported.trans (or_iff_right unmeasured).symm, fun both => unmeasured both.1⟩
  | evaluation i p e =>
    have flag : s.approximate = true := congrArg Timing.approximate (timing_eq here nofun)
    simp [flag, Part.Measured, Part.times?, Part.Unmarked]

/-- A span is unmarked if its start and duration are those of its part, and in two cases in which they are not: a
signal with a duration of its own, and the root, measured and then made longer. -/
theorem unflagged_ofDocument (d : Document) :
    List.Forall₂ (fun part s => (s.approximate = false ↔ part.Measured d s ∨ part.Unmarked d s) ∧
      ¬ (part.Measured d s ∧ part.Unmarked d s)) d.parts (ofDocument d) :=
  List.forall₂_iff_zip.2 ⟨(shown_ofDocument d).length_eq, unflagged_iff⟩

-- The root is measured at a millisecond, but its phase takes two. The second signal starts where the
-- first one ends, as nobody recorded.
theorem unflagged_unmeasured :
    let second : Signal := { name := "test", durationMs := some 0.25 }
    let b : SignalBlock :=
      { start := 1000000, finish := 3000000
        signals := [{ name := "lint", durationMs := some 0.5 }, second] }
    let p : Phase := { name := "global", start := 1000000, finish := 3000000, signals := some b }
    let d : Document := { start := 1000000, finish := 2000000, phases := [p] }
    (∃ s, (Part.root, s) ∈ d.parts.zip (ofDocument d) ∧ s.approximate = false ∧
      Timing.measured? d.start d.finish = some 1000 ∧ s.duration = 2000 ∧
      ¬ Part.root.Measured d s) ∧
    ∃ s, (Part.signal 0 p b 1 second, s) ∈ d.parts.zip (ofDocument d) ∧ s.approximate = false ∧
      s.start = 500 ∧ ¬ (Part.signal 0 p b 1 second).Measured d s := by
  intro second b p d
  refine ⟨?_, ?_⟩
  · obtain ⟨s, here⟩ := exists_span (Document.mem_parts_iff.2 (show Part.root.Of d from trivial))
    obtain ⟨id, inner, listed, -⟩ := root_of_mem_zip here
    have seen : (ofDocument d).head?.map (fun s => (s.approximate, s.duration)) = some (false, 2000) := by
      decide +kernel
    rw [listed, List.head?_cons, Option.map_some, Option.some_inj, Prod.mk.injEq] at seen
    refine ⟨s, here, seen.1, by decide +kernel, seen.2, ?_⟩
    rintro ⟨_, _, ⟨⟩, -, measured | reported⟩
    · rw [seen.2] at measured
      exact absurd measured (by decide +kernel)
    · cases reported
  · obtain ⟨s, here⟩ := exists_span
      (Document.mem_parts_iff.2 (show (Part.signal 0 p b 1 second).Of d from ⟨rfl, rfl, rfl⟩))
    have timed := timing_eq here nofun
    refine ⟨s, here, (congrArg Timing.approximate timed).trans (by decide +kernel),
      (congrArg Timing.start timed).trans (by decide +kernel), ?_⟩
    simp [Part.Measured, Part.times?]

end Span

end Waterfall
