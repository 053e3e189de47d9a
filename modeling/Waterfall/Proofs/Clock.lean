import Waterfall.Proofs.Retiming

set_option autoImplicit false

namespace Waterfall

namespace Timestamp

def later (δ : Int) (t : UInt64) : UInt64 :=
  if t = 0 then 0 else .ofNat (t.toNat + δ).toNat

def Fits (δ : Int) (t : UInt64) : Prop :=
  t ≠ 0 → 0 < t.toNat + δ ∧ t.toNat + δ < 2 ^ 64

section

variable {δ : Int} {s t : UInt64}

@[simp] theorem later_zero (δ : Int) : later δ 0 = 0 := rfl

theorem fits_zero (δ : Int) : Fits δ 0 :=
  fun known => absurd rfl known

theorem toNat_later (fits : Fits δ t) (known : t ≠ 0) :
    ((later δ t).toNat : Int) = t.toNat + δ := by
  obtain ⟨positive, small⟩ := fits known
  rw [later, if_neg known, UInt64.toNat_ofNat_of_lt' (by rw [UInt64.size]; omega)]
  omega

theorem later_eq_zero_iff (fits : Fits δ t) : later δ t = 0 ↔ t = 0 := by
  refine ⟨fun zero => by_contra fun known => ?_, fun zero => zero ▸ later_zero δ⟩
  have moved := toNat_later fits known
  rw [zero, UInt64.toNat_zero] at moved
  have := (fits known).1
  omega

theorem later_le_later_iff (first : Fits δ s) (second : Fits δ t) (known : s ≠ 0) :
    later δ t ≤ later δ s ↔ t ≤ s := by
  have moved := toNat_later first known
  have positive := (first known).1
  by_cases unknown : t = 0
  · subst unknown
    simp [UInt64.le_iff_toNat_le]
  · have := toNat_later second unknown
    rw [UInt64.le_iff_toNat_le, UInt64.le_iff_toNat_le]
    omega

end

end Timestamp

def Retiming.later (δ : Int) : Retiming :=
  ⟨Timestamp.later δ, id, id⟩

namespace Timing

open Timestamp

variable {δ : Int} {origin : Origin} {start finish : UInt64}

theorem measured?_later (start_fits : Fits δ start) (finish_fits : Fits δ finish) :
    measured? (later δ start) (later δ finish) = measured? start finish := by
  by_cases unknown : start = 0
  · subst unknown
    rfl
  · -- Both see whether the timestamps are in order, and the difference is what it was.
    have same : later δ start = 0 ∨ later δ finish ≤ later δ start ↔ start = 0 ∨ finish ≤ start :=
      or_congr (later_eq_zero_iff start_fits) (later_le_later_iff start_fits finish_fits unknown)
    unfold measured?
    by_cases reversed : start = 0 ∨ finish ≤ start
    · rw [if_pos (same.2 reversed), if_pos reversed]
    · have finish_known : finish ≠ 0 := by
        rintro rfl
        exact reversed (.inr UInt64.zero_le)
      have := toNat_later start_fits unknown
      have := toNat_later finish_fits finish_known
      have apart : (later δ finish).toNat - (later δ start).toNat = finish.toNat - start.toNat := by
        omega
      rw [if_neg (mt same.1 reversed), if_neg reversed, apart]

/-- What has a start is measured from a known origin. -/
structure Placed (δ : Int) (origin : Origin) (start finish : UInt64) : Prop where
  base : Fits δ origin
  begins : Fits δ start
  ends : Fits δ finish
  known : start ≠ 0 → origin ≠ 0

theorem Placed.offset?_later (placed : Placed δ origin start finish) :
    offset? (later δ origin) (later δ start) = offset? origin start := by
  by_cases unknown : start = 0
  · subst unknown
    rfl
  · have := toNat_later placed.begins unknown
    have := toNat_later placed.base (placed.known unknown)
    have apart : (later δ start).toNat - (later δ origin).toNat = start.toNat - origin.toNat := by
      omega
    rw [offset?, if_neg (mt (later_eq_zero_iff placed.begins).1 unknown), apart, offset?,
      if_neg unknown]

theorem Placed.measured?_later (placed : Placed δ origin start finish) :
    measured? (later δ start) (later δ finish) = measured? start finish :=
  Timing.measured?_later placed.begins placed.ends

theorem enrich_later {e : Enrichment} (placed : Placed δ origin e.start e.finish) :
    enrich (later δ origin) (e.retime (.later δ)) = enrich origin e := by
  simp only [enrich, Enrichment.retime, Retiming.later, placed.offset?_later,
    placed.measured?_later, id]

theorem phase_later {p : Phase} (placed : Placed δ origin p.start p.finish) (total : UInt64) :
    phase (later δ origin) total (p.retime (.later δ)) = phase origin total p := by
  simp only [phase, Phase.retime, Retiming.later, placed.offset?_later, placed.measured?_later, id]

theorem signals_later {b : SignalBlock} (placed : Placed δ origin b.start b.finish)
    (around : Timing) :
    signals (later δ origin) around (b.retime (.later δ)) = signals origin around b := by
  simp only [signals, SignalBlock.retime, Retiming.later, placed.offset?_later,
    placed.measured?_later, id]

end Timing

section Origin

open Timestamp

def earliest (times : List UInt64) : UInt64 :=
  ((times.filter (0 < ·)).min?).getD 0

section

variable {δ : Int} {times : List UInt64}

theorem earliest_eq_zero_or_mem (times : List UInt64) :
    earliest times = 0 ∨ earliest times ∈ times := by
  unfold earliest
  cases least : (times.filter (0 < ·)).min? with
  | none => exact .inl rfl
  | some m => exact .inr (List.mem_of_mem_filter (List.min?_mem least))

theorem earliest_ne_zero {t : UInt64} (member : t ∈ times) (known : t ≠ 0) : earliest times ≠ 0 := by
  have here : t ∈ times.filter (0 < ·) :=
    List.mem_filter.2 ⟨member, decide_eq_true (UInt64.pos_iff_ne_zero.2 known)⟩
  unfold earliest
  cases least : (times.filter (0 < ·)).min? with
  | none =>
    rw [List.min?_eq_none_iff.1 least] at here
    cases here
  | some m =>
    have positive := (List.mem_filter.1 (List.min?_mem least)).2
    exact UInt64.pos_iff_ne_zero.1 (of_decide_eq_true positive)

theorem min?_map_later (fits : ∀ t ∈ times, Fits δ t) (known : ∀ t ∈ times, t ≠ 0) :
    (times.map (later δ)).min? = times.min?.map (later δ) := by
  cases least : times.min? with
  | none =>
    rw [List.min?_eq_none_iff.1 least]
    rfl
  | some m =>
    obtain ⟨member, below⟩ := List.min?_eq_some_iff.1 least
    refine List.min?_eq_some_iff.2 ⟨List.mem_map_of_mem member, ?_⟩
    intro moved_t moved
    obtain ⟨t, here, rfl⟩ := List.mem_map.1 moved
    exact (later_le_later_iff (fits t here) (fits m member) (known t here)).2 (below t here)

theorem earliest_later (fits : ∀ t ∈ times, Fits δ t) :
    earliest (times.map (later δ)) = later δ (earliest times) := by
  have filtered : (times.map (later δ)).filter (0 < ·) = (times.filter (0 < ·)).map (later δ) := by
    rw [List.filter_map]
    refine congrArg _ (List.filter_congr fun t member => ?_)
    simp only [Function.comp_apply, UInt64.pos_iff_ne_zero, ne_eq,
      later_eq_zero_iff (fits t member)]
  have known (t : UInt64) (member : t ∈ times.filter (0 < ·)) : t ≠ 0 :=
    UInt64.pos_iff_ne_zero.1 (of_decide_eq_true (List.mem_filter.1 member).2)
  rw [earliest, filtered, min?_map_later (fun t member => fits t (List.mem_of_mem_filter member))
    known, earliest]
  cases (times.filter (0 < ·)).min? <;> rfl

end

def Document.starts (d : Document) : List UInt64 :=
  (d.enrich.map (·.start)).toList ++
    d.phases.flatMap fun p => [p.start, (p.signals.map (·.start)).getD 0]

theorem Origin.ofDocument_eq (d : Document) :
    Origin.ofDocument d = if 0 < d.start then d.start else earliest d.starts := rfl

def Document.times (d : Document) : List UInt64 :=
  d.start :: d.finish :: (d.enrich.elim [] fun e => [e.start, e.finish]) ++
    d.phases.flatMap fun p =>
      p.start :: p.finish :: p.signals.elim [] fun b => [b.start, b.finish]

variable {δ : Int} {d : Document}

theorem Document.starts_later (δ : Int) (d : Document) :
    (d.retime (.later δ)).starts = d.starts.map (later δ) := by
  have enrich : ((d.enrich.map (Enrichment.retime (.later δ))).map (·.start)).toList =
      (d.enrich.map (·.start)).toList.map (later δ) := by
    cases d.enrich <;> rfl
  have block (p : Phase) : ((p.retime (.later δ)).signals.map (·.start)).getD 0 =
      later δ ((p.signals.map (·.start)).getD 0) := by
    simp only [Phase.retime]
    cases p.signals <;> rfl
  simp only [starts, retime, List.map_append, enrich, List.flatMap_map, List.map_flatMap, block]
  rfl

theorem Document.times_of_enrich {e : Enrichment} (present : d.enrich = some e) :
    e.start ∈ d.times ∧ e.finish ∈ d.times := by
  simp [times, present]

theorem Document.times_of_phase {p : Phase} (here : p ∈ d.phases) :
    p.start ∈ d.times ∧ p.finish ∈ d.times ∧
      ∀ b, p.signals = some b → b.start ∈ d.times ∧ b.finish ∈ d.times := by
  have inside (t : UInt64)
      (own : t ∈ p.start :: p.finish :: p.signals.elim [] fun b => [b.start, b.finish]) :
      t ∈ d.times :=
    List.mem_append_right _ (List.mem_flatMap.2 ⟨p, here, own⟩)
  refine ⟨inside _ (by simp), inside _ (by simp), fun b present => ⟨inside _ ?_, inside _ ?_⟩⟩
  · simp [present]
  · simp [present]

theorem Document.fits_starts (fits : ∀ t ∈ d.times, Fits δ t) : ∀ t ∈ d.starts, Fits δ t := by
  intro t member
  obtain enriched | phased := List.mem_append.1 member
  · obtain ⟨e, present, rfl⟩ := Option.map_eq_some_iff.1 (Option.mem_toList.1 enriched)
    exact fits _ (times_of_enrich present).1
  · obtain ⟨p, here, within⟩ := List.mem_flatMap.1 phased
    obtain ⟨start, -, block⟩ := times_of_phase here
    rw [List.mem_pair] at within
    obtain rfl | rfl := within
    · exact fits _ start
    · cases present : p.signals with
      | none => exact fits_zero δ
      | some b => exact fits _ (block b present).1

theorem Origin.later_ofDocument (fits : ∀ t ∈ d.times, Fits δ t) :
    Origin.ofDocument (d.retime (.later δ)) = later δ (Origin.ofDocument d) := by
  have start_fits : Fits δ d.start := fits _ List.mem_cons_self
  have same : 0 < later δ d.start ↔ 0 < d.start := by
    simp only [UInt64.pos_iff_ne_zero, ne_eq, later_eq_zero_iff start_fits]
  rw [ofDocument_eq, ofDocument_eq, Document.starts_later, earliest_later (d.fits_starts fits)]
  by_cases known : 0 < d.start
  · rw [if_pos known]
    exact if_pos (same.2 known)
  · rw [if_neg known]
    exact if_neg (mt same.1 known)

theorem Origin.fits_ofDocument (fits : ∀ t ∈ d.times, Fits δ t) : Fits δ (Origin.ofDocument d) := by
  rw [ofDocument_eq]
  split
  · exact fits _ List.mem_cons_self
  · obtain none_known | listed := earliest_eq_zero_or_mem d.starts
    · exact none_known ▸ fits_zero δ
    · exact d.fits_starts fits _ listed

theorem Origin.ofDocument_ne_zero {t : UInt64} (member : t ∈ d.starts) (known : t ≠ 0) :
    Origin.ofDocument d ≠ 0 := by
  rw [ofDocument_eq]
  split
  · next positive => exact UInt64.pos_iff_ne_zero.1 positive
  · exact earliest_ne_zero member known

end Origin

section Spans

open Timestamp
open Timing (Placed)

variable {δ : Int} {d : Document} {origin : Origin}

theorem Document.placed_of_enrich (fits : ∀ t ∈ d.times, Fits δ t) {e : Enrichment}
    (present : d.enrich = some e) : Placed δ (Origin.ofDocument d) e.start e.finish := by
  obtain ⟨start, finish⟩ := times_of_enrich present
  exact ⟨Origin.fits_ofDocument fits, fits _ start, fits _ finish,
    Origin.ofDocument_ne_zero (by simp [starts, present])⟩

structure Phase.Placed (δ : Int) (origin : Origin) (p : Phase) : Prop where
  own : Timing.Placed δ origin p.start p.finish
  block : ∀ b, p.signals = some b → Timing.Placed δ origin b.start b.finish

theorem Document.placed_of_phase (fits : ∀ t ∈ d.times, Fits δ t) {p : Phase}
    (here : p ∈ d.phases) :
    p.Placed δ (Origin.ofDocument d) := by
  obtain ⟨start, finish, block⟩ := times_of_phase here
  have listed (t : UInt64) (own : t ∈ [p.start, (p.signals.map (·.start)).getD 0]) : t ∈ d.starts :=
    List.mem_append_right _ (List.mem_flatMap.2 ⟨p, here, own⟩)
  refine ⟨⟨Origin.fits_ofDocument fits, fits _ start, fits _ finish,
    Origin.ofDocument_ne_zero (listed _ (by simp))⟩, fun b present => ?_⟩
  obtain ⟨block_start, block_finish⟩ := block b present
  exact ⟨Origin.fits_ofDocument fits, fits _ block_start, fits _ block_finish,
    Origin.ofDocument_ne_zero (listed _ (by simp [present]))⟩

namespace Span

theorem ofSignals_later (ids : PhaseIds) (around : Timing) {block : Option SignalBlock}
    (placed : ∀ b, block = some b → Placed δ origin b.start b.finish) :
    ofSignals (later δ origin) ids around (block.map (SignalBlock.retime (.later δ))) =
      ofSignals origin ids around block := by
  cases block with
  | none => rfl
  | some b =>
    have each : (b.retime (.later δ)).signals = b.signals := List.map_id _
    have shown (id : String) (t : Timing) :
        signals ids.phase id t (b.retime (.later δ)) = signals ids.phase id t b := by
      rw [signals, each, signals]
      rfl
    simp only [Option.map_some, ofSignals, Timing.signals_later (placed b rfl), each, shown]

theorem ofPhase_later {p : Phase} (placed : p.Placed δ origin) (total : UInt64) (root : String)
    (index : Nat) (ids : PhaseIds) :
    ofPhase (later δ origin) total root index ids (p.retime (.later δ)) =
      ofPhase origin total root index ids p := by
  have block := ofSignals_later ids (Timing.phase origin total p) placed.block
  simp only [ofPhase, Timing.phase_later placed.own]
  exact congrArg (_ :: · ++ _) block

theorem ofPhases_later {phases : List Phase} (placed : ∀ p ∈ phases, p.Placed δ origin)
    (total : UInt64) (root : String) (index : Nat) (ids : List PhaseIds) :
    ofPhases (later δ origin) total root index ids (phases.map (Phase.retime (.later δ))) =
      ofPhases origin total root index ids phases := by
  induction phases generalizing index ids with
  | nil => cases ids <;> rfl
  | cons p rest ih =>
    obtain ⟨first, others⟩ := List.forall_mem_cons.1 placed
    cases ids with
    | nil => rfl
    | cons own ids => rw [List.map_cons, ofPhases, ofPhases, ofPhase_later first, ih others]

theorem ofEnrich_later (root : String) (id : Option String) {enrich : Option Enrichment}
    (placed : ∀ e, enrich = some e → Placed δ origin e.start e.finish) :
    ofEnrich (later δ origin) root id (enrich.map (Enrichment.retime (.later δ))) =
      ofEnrich origin root id enrich := by
  cases enrich with
  | none => rfl
  | some e =>
    simp only [Option.map_some, ofEnrich, Timing.enrich_later (placed e rfl)]
    rfl

/-- A document whose known timestamps are all moved by `δ` nanoseconds has the same spans. -/
theorem ofDocument_later (δ : Int) (d : Document)
    (fits : ∀ t ∈ d.times, t ≠ 0 → 0 < t.toNat + δ ∧ t.toNat + δ < 2 ^ 64) :
    ofDocument (d.retime (.later δ)) = ofDocument d := by
  have origin := Origin.later_ofDocument fits
  have total : Timing.root (d.retime (.later δ)) = Timing.root d := by
    have measured : Timing.measured? (later δ d.start) (later δ d.finish) =
        Timing.measured? d.start d.finish :=
      Timing.measured?_later (fits _ (by simp [Document.times])) (fits _ (by simp [Document.times]))
    rw [Timing.root, Timing.root, ← measured]
    rfl
  have enrich (root : String) (id : Option String) :
      ofEnrich (.ofDocument (d.retime (.later δ))) root id (d.retime (.later δ)).enrich =
        ofEnrich (.ofDocument d) root id d.enrich := by
    rw [origin]
    exact ofEnrich_later root id fun e => d.placed_of_enrich fits
  have phases (total : UInt64) (root : String) (ids : List PhaseIds) :
      ofPhases (.ofDocument (d.retime (.later δ))) total root 0 ids (d.retime (.later δ)).phases =
        ofPhases (.ofDocument d) total root 0 ids d.phases := by
    rw [origin]
    exact ofPhases_later (fun p => d.placed_of_phase fits) total root 0 ids
  have root (id : String) (t : Timing) : root id t (d.retime (.later δ)) = root id t d := by
    rw [Span.root, Document.status_retime]
    rfl
  simp only [ofDocument, DocumentIds.ofDocument_retime, total, enrich, phases, root]

-- The root has no start here, and the block of signals ends before it begins.
theorem ofDocument_later_rootless :
    let d : Document :=
      { finish := 70000
        phases := [
          { name := "global", start := 5000, finish := 90000, evaluation := some {}
            signals := some { start := 4000, finish := 3000, signals := [{}, {}] } },
          { start := 6500, durationMs := some 2.5 }] }
    (∀ t ∈ d.times, t ≠ 0 → 0 < (t.toNat : Int) + -2999 ∧ (t.toNat : Int) + -2999 < 2 ^ 64) ∧
      ofDocument (d.retime (.later (-2999))) = ofDocument d := by
  intro d
  have fits (t : UInt64) (member : t ∈ d.times) :
      t ≠ 0 → 0 < (t.toNat : Int) + -2999 ∧ (t.toNat : Int) + -2999 < 2 ^ 64 := by
    fin_cases member <;> decide
  exact ⟨fits, ofDocument_later (-2999) d fits⟩

end Span

end Spans

end Waterfall
