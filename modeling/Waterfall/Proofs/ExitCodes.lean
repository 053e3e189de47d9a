import Waterfall.Proofs.SpanIds
import Waterfall.Span.OfDocument

set_option autoImplicit false

namespace Waterfall

def Signal.withoutExit (s : Signal) : Signal :=
  { s with exitCode := none }

def SignalBlock.withoutExits (b : SignalBlock) : SignalBlock :=
  { b with signals := b.signals.map Signal.withoutExit }

def Phase.withoutExits (p : Phase) : Phase :=
  { p with signals := p.signals.map SignalBlock.withoutExits }

def Document.withoutExits (d : Document) : Document :=
  { d with phases := d.phases.map Phase.withoutExits }

theorem PhaseIds.claim_withoutExits (root : String) (index : Nat) (p : Phase) (ids : Ids) :
    claim root index p.withoutExits ids = claim root index p ids := by
  cases block : p.signals with
  | none => simp [claim, Phase.withoutExits, block]
  | some b => simp [claim, claimSignals, Phase.withoutExits, SignalBlock.withoutExits, block]

theorem DocumentIds.ofDocument_withoutExits (d : Document) :
    ofDocument d.withoutExits = ofDocument d := by
  simp only [ofDocument, Document.withoutExits]
  rw [PhaseIds.claimAll_map PhaseIds.claim_withoutExits]
  rfl

theorem Timing.inTurn_withoutExit (share start : UInt64) (signals : List Signal) :
    inTurn share start (signals.map Signal.withoutExit) = inTurn share start signals := by
  induction signals generalizing start with
  | nil => rfl
  | cons s rest ih => exact congrArg (_ :: ·) (ih _)

theorem Origin.ofDocument_withoutExits (d : Document) : ofDocument d.withoutExits = ofDocument d := by
  have start (p : Phase) : (p.withoutExits.signals.map (·.start)).getD 0 =
      (p.signals.map (·.start)).getD 0 := by
    rw [Phase.withoutExits]
    cases p.signals <;> rfl
  have starts : (d.withoutExits.phases.flatMap fun p => [p.start, (p.signals.map (·.start)).getD 0]) =
      d.phases.flatMap fun p => [p.start, (p.signals.map (·.start)).getD 0] := by
    simp only [Document.withoutExits, List.flatMap_map, start]
    rfl
  simp only [ofDocument, starts]
  rfl

theorem Document.status_withoutExits (d : Document) : d.withoutExits.status = d.status := by
  have phases : d.withoutExits.phases.map Phase.status = d.phases.map Phase.status := by
    simp only [withoutExits, List.map_map]
    rfl
  rw [status, phases]
  rfl

namespace Span

def withoutExit (s : Span) : Span :=
  match s.service with
  | .signals => { s with status := .ok }
  | .signal => { s with status := .ok, data := .null }
  | _ => s

theorem withoutExit_of_service {s : Span} (signal : s.service ≠ .signal)
    (signals : s.service ≠ .signals) : s.withoutExit = s := by
  unfold withoutExit
  split
  · next service => exact absurd service signals
  · next service => exact absurd service signal
  · rfl

theorem withoutExit_eq (s : Span) :
    s.withoutExit = { s with status := s.withoutExit.status, data := s.withoutExit.data } := by
  unfold withoutExit
  split <;> rfl

theorem service_withoutExit (s : Span) : s.withoutExit.service = s.service := by
  rw [withoutExit_eq]

theorem finish_withoutExit (s : Span) : s.withoutExit.finish = s.finish := by
  rw [withoutExit_eq]
  rfl

theorem eachSignal_withoutExit (parent : String) (index : Nat) (ids : List String) (ts : List Timing)
    (signals : List Signal) :
    (eachSignal parent index ids ts (signals.map Signal.withoutExit)).map withoutExit =
      (eachSignal parent index ids ts signals).map withoutExit := by
  induction signals generalizing index ids ts with
  | nil => cases ids <;> cases ts <;> rfl
  | cons s rest ih =>
    cases ids with
    | nil => rfl
    | cons id ids =>
      cases ts with
      | nil => rfl
      | cons t ts => exact congrArg (_ :: ·) (ih (index + 1) ids ts)

theorem ofSignals_withoutExits (origin : Origin) (ids : PhaseIds) (around : Timing)
    (block : Option SignalBlock) :
    (ofSignals origin ids around (block.map SignalBlock.withoutExits)).map withoutExit =
      (ofSignals origin ids around block).map withoutExit := by
  cases block with
  | none => rfl
  | some b =>
    have count : b.withoutExits.signals.length = b.signals.length := List.length_map _
    have shown (parent id : String) (t : Timing) :
        (signals parent id t b.withoutExits).withoutExit = (signals parent id t b).withoutExit := by
      simp only [withoutExit, signals, count]
      rfl
    simp only [Option.map_some, ofSignals]
    cases ids.signals with
    | none => rfl
    | some own =>
      simp only [List.map_cons, shown, count]
      exact congrArg (_ :: ·) (by
        rw [SignalBlock.withoutExits, Timing.inTurn_withoutExit, eachSignal_withoutExit]
        rfl)

theorem ofPhase_withoutExits (origin : Origin) (total : UInt64) (root : String) (index : Nat)
    (ids : PhaseIds) (p : Phase) :
    (ofPhase origin total root index ids p.withoutExits).map withoutExit =
      (ofPhase origin total root index ids p).map withoutExit := by
  have block := ofSignals_withoutExits origin ids (Timing.phase origin total p) p.signals
  simp only [ofPhase, List.map_cons, List.map_append, ← block]
  rfl

theorem ofPhases_withoutExits (origin : Origin) (total : UInt64) (root : String) (index : Nat)
    (ids : List PhaseIds) (phases : List Phase) :
    (ofPhases origin total root index ids (phases.map Phase.withoutExits)).map withoutExit =
      (ofPhases origin total root index ids phases).map withoutExit := by
  induction phases generalizing index ids with
  | nil => cases ids <;> rfl
  | cons p rest ih =>
    cases ids with
    | nil => rfl
    | cons own ids =>
      rw [List.map_cons, ofPhases, ofPhases, List.map_append, List.map_append, ofPhase_withoutExits,
        ih]

theorem latest_eq_of_withoutExit {a b : List Span} (same : a.map withoutExit = b.map withoutExit) :
    latest a = latest b := by
  have finish (spans : List Span) :
      (spans.map withoutExit).map Span.finish = spans.map Span.finish := by
    simp only [List.map_map, Function.comp_def, finish_withoutExit]
  rw [latest, latest, ← finish a, same, finish b]

theorem ofDocument_withoutExits (d : Document) :
    (ofDocument d.withoutExits).map withoutExit = (ofDocument d).map withoutExit := by
  have root (id : String) (t : Timing) : root id t d.withoutExits = root id t d := by
    rw [Span.root, Document.status_withoutExits]
    rfl
  have inner (total : UInt64) (root : String) (enrich : Option String) (ids : List PhaseIds) :
      (ofEnrich (.ofDocument d.withoutExits) root enrich d.withoutExits.enrich ++
        ofPhases (.ofDocument d.withoutExits) total root 0 ids d.withoutExits.phases).map withoutExit =
      (ofEnrich (.ofDocument d) root enrich d.enrich ++
        ofPhases (.ofDocument d) total root 0 ids d.phases).map withoutExit := by
    rw [Origin.ofDocument_withoutExits, List.map_append, List.map_append,
      ← ofPhases_withoutExits _ _ _ _ _ d.phases]
    rfl
  simp only [ofDocument, DocumentIds.ofDocument_withoutExits, root, List.map_cons, inner, cover]
  rw [latest_eq_of_withoutExit (inner _ _ _ _)]
  rfl

/-- Spans that show the same, apart from what an exit code shows on the span of a signal or of a block
of signals. -/
structure AlikeButExits (s t : Span) : Prop where
  elsewhere : s = { t with status := s.status, data := s.data }
  outside : s.service ≠ .signal → s.service ≠ .signals → s = t

theorem alikeButExits_of_withoutExit {s t : Span} (same : s.withoutExit = t.withoutExit) :
    s.AlikeButExits t := by
  have service : s.service = t.service := by
    rw [← s.service_withoutExit, same, t.service_withoutExit]
  constructor
  · have left := s.withoutExit_eq
    rw [same, t.withoutExit_eq] at left
    cases s
    cases t
    simp only [mk.injEq] at left
    simp [left]
  · intro signal signals
    rwa [withoutExit_of_service signal signals,
      withoutExit_of_service (service ▸ signal) (service ▸ signals)] at same

theorem alikeButExits_ofDocument {a b : Document} (same : a.withoutExits = b.withoutExits) :
    List.Forall₂ AlikeButExits (ofDocument a) (ofDocument b) := by
  have spans : (ofDocument a).map withoutExit = (ofDocument b).map withoutExit := by
    rw [← ofDocument_withoutExits a, same, ofDocument_withoutExits]
  rw [← List.forall₂_eq_eq_eq, List.forall₂_map_left_iff, List.forall₂_map_right_iff] at spans
  exact spans.imp fun s t => alikeButExits_of_withoutExit

end Span

end Waterfall
