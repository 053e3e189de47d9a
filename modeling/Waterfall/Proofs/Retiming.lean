import Waterfall.Proofs.Layout
import Waterfall.Trace

set_option autoImplicit false

namespace Waterfall

/-- New values for timestamps, for durations in fractions, and for durations in whole units. -/
structure Retiming where
  time : UInt64 → UInt64
  fraction : Option Float → Option Float
  whole : Option UInt64 → Option UInt64

def Retiming.forget : Retiming :=
  ⟨fun _ => 0, fun _ => none, fun _ => none⟩

def Signal.retime (r : Retiming) (s : Signal) : Signal :=
  { s with durationMs := r.fraction s.durationMs }

def SignalBlock.retime (r : Retiming) (b : SignalBlock) : SignalBlock :=
  { b with
    start := r.time b.start
    finish := r.time b.finish
    durationMs := r.fraction b.durationMs
    signals := b.signals.map (Signal.retime r) }

def Phase.retime (r : Retiming) (p : Phase) : Phase :=
  { p with
    start := r.time p.start
    finish := r.time p.finish
    durationMs := r.fraction p.durationMs
    signals := p.signals.map (SignalBlock.retime r) }

def Enrichment.retime (r : Retiming) (e : Enrichment) : Enrichment :=
  { e with
    start := r.time e.start
    finish := r.time e.finish
    durationUs := r.whole e.durationUs
    durationMs := r.fraction e.durationMs }

def Document.retime (r : Retiming) (d : Document) : Document :=
  { d with
    start := r.time d.start
    finish := r.time d.finish
    enrich := d.enrich.map (Enrichment.retime r)
    phases := d.phases.map (Phase.retime r)
    totalDurationMs := r.whole d.totalDurationMs }

def Part.retime (r : Retiming) : Part → Part
  | root => root
  | enrich e => enrich (e.retime r)
  | phase i p => phase i (p.retime r)
  | signals i p b => signals i (p.retime r) (b.retime r)
  | signal i p b k s => signal i (p.retime r) (b.retime r) k (s.retime r)
  | evaluation i p e => evaluation i (p.retime r) e

variable (r : Retiming)

theorem PhaseIds.claim_retime (root : String) (index : Nat) (p : Phase) (ids : Ids) :
    claim root index (p.retime r) ids = claim root index p ids := by
  cases block : p.signals with
  | none => simp [claim, Phase.retime, block]
  | some b => simp [claim, claimSignals, Phase.retime, SignalBlock.retime, block]

theorem PhaseIds.claimAll_retime (root : String) (index : Nat) (phases : List Phase) (ids : Ids) :
    claimAll root index (phases.map (Phase.retime r)) ids = claimAll root index phases ids :=
  claimAll_map (claim_retime r) root index phases ids

theorem DocumentIds.ofDocument_retime (d : Document) : ofDocument (d.retime r) = ofDocument d := by
  have enrich (root : String) (ids : Ids) :
      claimEnrich root ids (d.enrich.map (Enrichment.retime r)) = claimEnrich root ids d.enrich := by
    cases d.enrich <;> rfl
  simp only [ofDocument, Document.retime, enrich, PhaseIds.claimAll_retime]
  rfl

theorem DocumentIds.of?_retime (ids : DocumentIds) (part : Part) :
    ids.of? (part.retime r) = ids.of? part := by
  cases part <;> rfl

theorem Part.parent_retime (part : Part) : (part.retime r).parent = part.parent.map (retime r) := by
  cases part <;> rfl

theorem SignalBlock.parts_retime (index : Nat) (p : Phase) (b : SignalBlock) :
    (b.retime r).parts index (p.retime r) = (b.parts index p).map (Part.retime r) := by
  simp only [parts, retime, List.zipIdx_map, List.map_map, List.map_cons]
  rfl

theorem Phase.parts_retime (index : Nat) (p : Phase) :
    (p.retime r).parts index = (p.parts index).map (Part.retime r) := by
  have signals : (p.signals.map (SignalBlock.retime r)).elim []
        (SignalBlock.parts index (p.retime r)) =
      (p.signals.elim [] (SignalBlock.parts index p)).map (Part.retime r) := by
    cases p.signals with
    | none => rfl
    | some b => exact b.parts_retime r index p
  have evaluation : (p.evaluation.elim [] fun e => [Part.evaluation index (p.retime r) e]) =
      (p.evaluation.elim [] fun e => [.evaluation index p e]).map (Part.retime r) := by
    cases p.evaluation <;> rfl
  rw [parts.eq_def index p, List.map_cons, List.map_append, ← signals, ← evaluation]
  rfl

theorem Document.parts_retime (d : Document) :
    (d.retime r).parts = d.parts.map (Part.retime r) := by
  have enrich : ((d.enrich.map (Enrichment.retime r)).elim [] fun e => [Part.enrich e]) =
      (d.enrich.elim [] fun e => [.enrich e]).map (Part.retime r) := by
    cases d.enrich <;> rfl
  have phases (index : Nat) (phases : List Phase) :
      (((phases.map (Phase.retime r)).zipIdx index).flatMap fun x => x.1.parts x.2) =
        ((phases.zipIdx index).flatMap fun x => x.1.parts x.2).map (Part.retime r) := by
    induction phases generalizing index with
    | nil => rfl
    | cons p rest ih =>
      simp only [List.map_cons, List.zipIdx_cons, List.flatMap_cons, List.map_append, ih,
        p.parts_retime]
  rw [parts.eq_def d, List.map_cons, List.map_append, ← enrich]
  exact congrArg (.root :: _ ++ ·) (phases 0 d.phases)

structure Span.Face where
  id : String
  parent : Option String
  name : String
  service : Service
  status : Status

def Span.face (s : Span) : Face :=
  ⟨s.id, s.parent, s.name, s.service, s.status⟩

theorem Document.status_retime (d : Document) : (d.retime r).status = d.status := by
  have phases : (d.retime r).phases.map Phase.status = d.phases.map Phase.status := by
    simp only [retime, List.map_map]
    rfl
  rw [status, phases]
  rfl

namespace Span

variable {r} {d : Document} {part : Part} {s t : Span}

theorem kind_retime (id parent id' parent' : String) (t t' : Timing) :
    ((part.retime r).span (d.retime r) id parent t).name = (part.span d id' parent' t').name ∧
      ((part.retime r).span (d.retime r) id parent t).service =
        (part.span d id' parent' t').service ∧
      ((part.retime r).span (d.retime r) id parent t).status =
        (part.span d id' parent' t').status := by
  cases part with
  | root => exact ⟨rfl, rfl, d.status_retime r⟩
  | signals i p b =>
    have each : (b.retime r).signals.map Signal.status = b.signals.map Signal.status := by
      rw [SignalBlock.retime, List.map_map]
      rfl
    have count : (b.retime r).signals.length = b.signals.length := List.length_map _
    refine ⟨?_, rfl, congrArg Status.worstOf each⟩
    simp only [Part.retime, Part.span, signals, count]
  | _ => exact ⟨rfl, rfl, rfl⟩

theorem face_eq_of_shown (before : Shown d part s) (after : Shown (d.retime r) (part.retime r) t) :
    t.face = s.face := by
  have id : t.id = s.id := by
    have claimed := after.id
    rw [DocumentIds.ofDocument_retime, DocumentIds.of?_retime, before.id] at claimed
    exact (Option.some.inj claimed).symm
  have parent : t.parent = s.parent := by
    rw [after.parent, before.parent, DocumentIds.ofDocument_retime, Part.parent_retime]
    cases part.parent with
    | none => rfl
    | some up => exact DocumentIds.of?_retime r _ up
  obtain ⟨own, above, timing, shows, -⟩ := before.shows
  obtain ⟨own', above', timing', shows', -⟩ := after.shows
  obtain ⟨name, service, status⟩ := kind_retime own' above' own above timing' timing
  rw [← shows, ← shows'] at name service status
  rw [face, face, id, parent, name, service, status]

theorem map_face_retime (r : Retiming) (d : Document) :
    (ofDocument (d.retime r)).map face = (ofDocument d).map face := by
  have before := shown_ofDocument d
  have after := shown_ofDocument (d.retime r)
  rw [Document.parts_retime, List.forall₂_map_left_iff] at after
  generalize d.parts = parts, ofDocument d = spans, ofDocument (d.retime r) = retimed
    at before after
  induction before generalizing retimed with
  | nil => rw [List.forall₂_nil_left_iff.1 after]
  | cons first _ ih =>
    obtain ⟨t, rest, shown, shown_rest, rfl⟩ := List.forall₂_cons_left_iff.1 after
    rw [List.map_cons, List.map_cons, face_eq_of_shown first shown, ih rest shown_rest]

end Span

def Row.face (r : Row) : Span.Face × Nat × Nat :=
  (r.span.face, r.index, r.depth)

theorem Row.map_face_ofDocument (d : Document) :
    (ofSpans (Span.ofDocument d)).map face =
      ((Span.ofDocument d).map Span.face).mapIdx fun i f => (f, i, f.service.depth) := by
  have pos : 0 < (Span.ofDocument d).length := Nat.succ_pos _
  rw [ofSpans, places_of_preOrdered (Span.preOrdered_ofDocument d) pos]
  apply List.ext_getElem
  · simp [Forest.listing]
  · simp [Forest.listing, Span.kindDepth, face, Span.face]

/-- Documents that differ only in their timing fields have spans and rows that differ only in timing
and data. -/
theorem Trace.faces_of_forgotten (a b : Document) (same : a.retime .forget = b.retime .forget) :
    (ofDocument a).spans.map Span.face = (ofDocument b).spans.map Span.face ∧
      (ofDocument a).rows.map Row.face = (ofDocument b).rows.map Row.face := by
  have spans : (Span.ofDocument a).map Span.face = (Span.ofDocument b).map Span.face := by
    rw [← Span.map_face_retime .forget a, same, Span.map_face_retime]
  refine ⟨spans, ?_⟩
  calc (Row.ofSpans (Span.ofDocument a)).map Row.face
      = ((Span.ofDocument a).map Span.face).mapIdx fun i f => (f, i, f.service.depth) :=
        Row.map_face_ofDocument a
    _ = (Row.ofSpans (Span.ofDocument b)).map Row.face := by
      rw [spans, Row.map_face_ofDocument]

theorem Trace.faces_of_forgotten_rerun :
    let first : Document :=
      { start := 1000, finish := 900000, totalDurationMs := some 1
        enrich := some { start := 2000, durationUs := some 12 }
        phases := [
          { name := "global", start := 3000, finish := 500000, evaluation := some {}
            signals := some { signals := [{ name := "lint", durationMs := some 0.25 }, {}] } },
          { start := 500000, durationMs := some 2.5 }] }
    let second : Document :=
      { finish := 7
        enrich := some { durationMs := some 3.0 }
        phases := [
          { name := "global", start := 9000, finish := 8000, evaluation := some {}
            signals := some
              { start := 1, durationMs := some 1e300,
                signals := [{ name := "lint" }, { durationMs := some (-1.0) }] } },
          { finish := 18446744073709551615 }] }
    first.retime .forget = second.retime .forget ∧
      (ofDocument first).spans.map Span.face = (ofDocument second).spans.map Span.face ∧
        (ofDocument first).rows.map Row.face = (ofDocument second).rows.map Row.face := by
  intro first second
  have same : first.retime .forget = second.retime .forget := rfl
  exact ⟨same, faces_of_forgotten first second same⟩

end Waterfall
