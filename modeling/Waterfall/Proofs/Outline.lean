import Waterfall.Proofs.SpanIds
import Waterfall.Span.OfDocument

set_option autoImplicit false

namespace Waterfall

-- A part of a phase keeps the phase and its number, so that equal parts have one owner.
inductive Part where
  | root
  | enrich (e : Enrichment)
  | phase (index : Nat) (p : Phase)
  | signals (index : Nat) (p : Phase) (b : SignalBlock)
  | signal (index : Nat) (p : Phase) (b : SignalBlock) (k : Nat) (s : Signal)
  | evaluation (index : Nat) (p : Phase) (e : Evaluation)

namespace Part

def parent : Part → Option Part
  | root => none
  | enrich _ => some root
  | phase _ _ => some root
  | signals i p _ => some (phase i p)
  | signal i p b _ _ => some (signals i p b)
  | evaluation i p _ => some (phase i p)

def span (d : Document) (id parent : String) (t : Timing) : Part → Span
  | root => .root id t d
  | enrich e => .enrich parent id t e
  | phase i p => .phase parent id i t p
  | signals _ _ b => .signals parent id t b
  | signal _ _ _ k s => .signal parent id k t s
  | evaluation _ p e => .evaluation parent id t p.status e

def Shows (d : Document) (part : Part) (s : Span) : Prop :=
  ∃ id parent t, s = part.span d id parent t

-- The root may last longer than this.
def timing (d : Document) : Part → Timing
  | root => .root d
  | enrich e => .enrich (.ofDocument d) e
  | phase _ p => .phase (.ofDocument d) (Timing.root d).duration p
  | signals _ p b => .signals (.ofDocument d) (.phase (.ofDocument d) (Timing.root d).duration p) b
  | signal _ p b k _ =>
    let t := Timing.signals (.ofDocument d) (.phase (.ofDocument d) (Timing.root d).duration p) b
    (Timing.inTurn (Timing.share t.duration b.signals.length) t.start b.signals)[k]?.getD t
  | evaluation _ p _ => .evaluation (.phase (.ofDocument d) (Timing.root d).duration p)

end Part

def SignalBlock.parts (index : Nat) (p : Phase) (b : SignalBlock) : List Part :=
  .signals index p b :: b.signals.zipIdx.map fun (s, k) => .signal index p b k s

def Phase.parts (index : Nat) (p : Phase) : List Part :=
  .phase index p ::
    (p.signals.elim [] (SignalBlock.parts index p) ++
      p.evaluation.elim [] fun e => [.evaluation index p e])

def Document.parts (d : Document) : List Part :=
  .root :: ((d.enrich.elim [] fun e => [.enrich e]) ++
    d.phases.zipIdx.flatMap fun (p, i) => p.parts i)

def DocumentIds.of? (ids : DocumentIds) : Part → Option String
  | .root => some ids.root
  | .enrich _ => ids.enrich
  | .phase i _ => ids.phases[i]?.map (·.phase)
  | .signals i _ _ => (ids.phases[i]?.bind (·.signals)).map (·.1)
  | .signal i _ _ k _ => (ids.phases[i]?.bind (·.signals)).bind (·.2[k]?)
  | .evaluation i _ _ => ids.phases[i]?.bind (·.evaluation)

structure Shown (d : Document) (part : Part) (s : Span) : Prop where
  shows : ∃ id parent t, s = part.span d id parent t ∧ (part ≠ .root → t = part.timing d)
  id : (DocumentIds.ofDocument d).of? part = some s.id
  parent : s.parent = part.parent.bind (DocumentIds.ofDocument d).of?

theorem Timing.length_inTurn (share start : UInt64) (signals : List Signal) :
    (inTurn share start signals).length = signals.length := by
  induction signals generalizing start with
  | nil => rfl
  | cons s rest ih => simp [inTurn, ih]

namespace Span

section Shown

variable {d : Document} {i : Nat} {p : Phase} {own : PhaseIds}

theorem shown_eachSignal {b : SignalBlock} {block : String} {each : List String}
    (found : (DocumentIds.ofDocument d).phases[i]? = some own)
    (ids : own.signals = some (block, each)) {turns : List Timing}
    (timed : ∀ k s (h : k < turns.length), turns[k] = (Part.signal i p b k s).timing d)
    {k : Nat} {signals : List Signal} (ids_length : each.length = k + signals.length)
    (turns_length : turns.length = k + signals.length) :
    List.Forall₂ (Shown d) ((signals.zipIdx k).map fun (s, k) => .signal i p b k s)
      (eachSignal block k (each.drop k) (turns.drop k) signals) := by
  induction signals generalizing k with
  | nil => simp [eachSignal]
  | cons s rest ih =>
    rw [List.length_cons] at ids_length turns_length
    have id_here : k < each.length := by omega
    have turn_here : k < turns.length := by omega
    rw [List.drop_eq_getElem_cons id_here, List.drop_eq_getElem_cons turn_here, List.zipIdx_cons,
      List.map_cons, eachSignal]
    refine .cons ⟨⟨each[k], block, turns[k], rfl, fun _ => timed k s turn_here⟩, ?_, ?_⟩
      (ih (by omega) (by omega))
    · simp [DocumentIds.of?, found, ids, signal]
    · simp [DocumentIds.of?, found, ids, signal, Part.parent]

theorem shown_ofSignals (found : (DocumentIds.ofDocument d).phases[i]? = some own)
    (fits : own.Fits p) :
    List.Forall₂ (Shown d) (p.signals.elim [] (SignalBlock.parts i p))
      (ofSignals (.ofDocument d) own (.phase (.ofDocument d) (Timing.root d).duration p)
        p.signals) := by
  have same := fits.signals
  cases present : p.signals with
  | none => exact .nil
  | some b =>
    rw [present] at same
    cases ids : own.signals with
    | none => simp [ids] at same
    | some own_ids =>
      obtain ⟨block, each⟩ := own_ids
      rw [ids, Option.rel_some_some] at same
      simp only [ofSignals, ids, Option.elim]
      refine .cons ⟨⟨block, own.phase, _, rfl, fun _ => rfl⟩, ?_, ?_⟩ ?_
      · simp [DocumentIds.of?, found, ids, signals]
      · simp [DocumentIds.of?, found, signals, Part.parent]
      · refine shown_eachSignal (k := 0) found ids (fun k s inside => ?_) (by simp [same])
          (by simp [Timing.length_inTurn])
        simp only [Part.timing, List.getElem?_eq_getElem inside, Option.getD_some]

theorem shown_ofEvaluation (found : (DocumentIds.ofDocument d).phases[i]? = some own)
    (fits : own.Fits p) :
    List.Forall₂ (Shown d) (p.evaluation.elim [] fun e => [.evaluation i p e])
      (ofEvaluation own (.phase (.ofDocument d) (Timing.root d).duration p) p.status
        p.evaluation) := by
  have same := fits.evaluation
  cases present : p.evaluation with
  | none => exact .nil
  | some e =>
    rw [present, Option.isSome_some, Option.isSome_iff_exists] at same
    obtain ⟨id, ids⟩ := same
    simp only [ofEvaluation, ids, Option.elim]
    refine .cons ⟨⟨id, own.phase, _, rfl, fun _ => rfl⟩, ?_, ?_⟩ .nil
    · simp [DocumentIds.of?, found, ids, evaluation]
    · simp [DocumentIds.of?, found, evaluation, Part.parent]

theorem shown_ofPhase (found : (DocumentIds.ofDocument d).phases[i]? = some own)
    (fits : own.Fits p) :
    List.Forall₂ (Shown d) (p.parts i)
      (ofPhase (.ofDocument d) (Timing.root d).duration (DocumentIds.ofDocument d).root i own p) := by
  refine .cons ⟨⟨own.phase, (DocumentIds.ofDocument d).root, _, rfl, fun _ => rfl⟩, ?_, ?_⟩ ?_
  · simp [DocumentIds.of?, found, phase]
  · simp [DocumentIds.of?, phase, Part.parent]
  · exact List.rel_append (shown_ofSignals found fits) (shown_ofEvaluation found fits)

theorem shown_ofPhases {rest : List PhaseIds} {phases : List Phase}
    (fits : List.Forall₂ PhaseIds.Fits rest phases)
    (later : (DocumentIds.ofDocument d).phases.drop i = rest) :
    List.Forall₂ (Shown d) ((phases.zipIdx i).flatMap fun (p, i) => p.parts i)
      (ofPhases (.ofDocument d) (Timing.root d).duration (DocumentIds.ofDocument d).root i rest
        phases) := by
  induction fits generalizing i with
  | nil => exact .nil
  | @cons own p rest phases fits _ ih =>
    have found : (DocumentIds.ofDocument d).phases[i]? = some own := by
      rw [← List.head?_drop, later, List.head?_cons]
    have tail : (DocumentIds.ofDocument d).phases.drop (i + 1) = rest := by
      rw [← List.tail_drop, later, List.tail_cons]
    exact List.rel_append (shown_ofPhase found fits) (ih tail)

theorem shown_ofEnrich (d : Document) :
    List.Forall₂ (Shown d) (d.enrich.elim [] fun e => [.enrich e])
      (ofEnrich (.ofDocument d) (DocumentIds.ofDocument d).root (DocumentIds.ofDocument d).enrich
        d.enrich) := by
  have same := DocumentIds.isSome_enrich d
  cases present : d.enrich with
  | none => exact .nil
  | some e =>
    rw [present, Option.isSome_some, Option.isSome_iff_exists] at same
    obtain ⟨id, ids⟩ := same
    simp only [ofEnrich, ids, Option.elim]
    refine .cons ⟨⟨id, (DocumentIds.ofDocument d).root, _, rfl, fun _ => rfl⟩, ?_, ?_⟩ .nil
    · simp [DocumentIds.of?, ids, enrich]
    · simp [DocumentIds.of?, enrich, Part.parent]

theorem cover_eq (t : Timing) (id : String) (d : Document) (inner : List Span) :
    ∃ t', cover (root id t d) inner = root id t' d := by
  unfold cover
  split
  · exact ⟨{ t with duration := latest inner }, rfl⟩
  · exact ⟨t, rfl⟩

theorem shown_ofDocument (d : Document) : List.Forall₂ (Shown d) d.parts (ofDocument d) := by
  unfold ofDocument
  obtain ⟨t, covered⟩ := cover_eq (Timing.root d) (DocumentIds.ofDocument d).root d
    (ofEnrich (.ofDocument d) (DocumentIds.ofDocument d).root (DocumentIds.ofDocument d).enrich
        d.enrich ++
      ofPhases (.ofDocument d) (Timing.root d).duration (DocumentIds.ofDocument d).root 0
        (DocumentIds.ofDocument d).phases d.phases)
  simp only [covered]
  refine .cons ⟨⟨_, "", t, rfl, fun other => absurd rfl other⟩, rfl, rfl⟩ ?_
  exact List.rel_append (shown_ofEnrich d) (shown_ofPhases (DocumentIds.fits_phases d) rfl)

end Shown

end Span

end Waterfall
