import Waterfall.Proofs.Decisions
import Waterfall.Proofs.ExitCodes
import Waterfall.Proofs.SpanTree

set_option autoImplicit false

namespace Waterfall

def Phase.Decides (p : Phase) (word : String) : Prop :=
  ∃ e ∈ p.evaluation, e.Decides word

def Document.Responds (d : Document) (word : String) : Prop :=
  ∃ payload ∈ d.response, Decision.Records payload word

def Document.responseStatus (d : Document) : Status :=
  Decision.classify (d.response.bind Decision.ofJson?)

theorem Phase.verdict_status (p : Phase) : Decision.Verdict p.Decides p.status := by
  refine Decision.verdict_classify fun word => ?_
  simp only [Option.bind_eq_some_iff, Evaluation.decision?_eq_some_iff, Decides, Option.mem_def]

theorem Document.verdict_responseStatus (d : Document) :
    Decision.Verdict d.Responds d.responseStatus := by
  refine Decision.verdict_classify fun word => ?_
  simp only [Option.bind_eq_some_iff, Decision.ofJson?_eq_some_iff, Responds, Option.mem_def]

theorem Document.status_of_errors {d : Document} (errors : d.errors ≠ []) : d.status = .error := by
  rw [status, if_neg (by simpa using errors), Status.error_worst, Status.error_worst]

theorem Document.isWorst_status {d : Document} (errors : d.errors = []) :
    d.status.IsWorst (d.responseStatus :: d.phases.map Phase.status) := by
  rw [status, if_pos (by simpa using errors), Status.ok_worst]
  exact (Status.isWorst_worstOf _).cons _

theorem Document.status_eq_ok_iff (d : Document) :
    d.status = .ok ↔
      d.errors = [] ∧ d.responseStatus = .ok ∧ ∀ p ∈ d.phases, p.status = .ok := by
  by_cases errors : d.errors = []
  · simp [(isWorst_status errors).eq_ok_iff, errors]
  · simp [status_of_errors errors, errors]

theorem Document.status_eq_error_of_phase {d : Document} {p : Phase} (here : p ∈ d.phases)
    (refused : p.status = .error) : d.status = .error := by
  by_cases errors : d.errors = []
  · exact (isWorst_status errors).eq_error_of_mem
      (List.mem_cons_of_mem _ (refused ▸ List.mem_map_of_mem here))
  · exact status_of_errors errors

theorem Signal.status_eq_error_iff (g : Signal) :
    g.status = .error ↔ ∃ code ∈ g.exitCode, code ≠ 0 := by
  unfold status
  cases g.exitCode with
  | none => simp
  | some code => by_cases passed : code = 0 <;> simp [passed]

theorem Signal.status_ne_warning (g : Signal) : g.status ≠ .warning := by
  unfold status
  split
  · split_ifs <;> simp
  · simp

namespace Part

def Of (d : Document) : Part → Prop
  | root => True
  | enrich e => d.enrich = some e
  | phase i p => d.phases[i]? = some p
  | signals i p b => d.phases[i]? = some p ∧ p.signals = some b
  | signal i p b k g => d.phases[i]? = some p ∧ p.signals = some b ∧ b.signals[k]? = some g
  | evaluation i p e => d.phases[i]? = some p ∧ p.evaluation = some e

def status (d : Document) : Part → Status
  | root => d.status
  | enrich _ => .ok
  | phase _ p => p.status
  | signals _ _ b => .worstOf (b.signals.map Signal.status)
  | signal _ _ _ _ g => g.status
  | evaluation _ p _ => p.status

end Part

theorem SignalBlock.mem_parts_iff {i : Nat} {p : Phase} {b : SignalBlock} {part : Part} :
    part ∈ b.parts i p ↔
      part = .signals i p b ∨ ∃ k g, b.signals[k]? = some g ∧ part = .signal i p b k g := by
  simp only [parts, List.mem_cons, List.mem_map, Prod.exists, List.mem_zipIdx_iff_getElem?]
  grind

theorem Phase.mem_parts_iff {i : Nat} {p : Phase} {part : Part} :
    part ∈ p.parts i ↔ part = .phase i p ∨ (∃ b, p.signals = some b ∧ part ∈ b.parts i p) ∨
      ∃ e, p.evaluation = some e ∧ part = .evaluation i p e := by
  rw [parts, List.mem_cons, List.mem_append]
  cases p.signals <;> cases p.evaluation <;> simp

theorem Document.mem_parts_iff {d : Document} {part : Part} : part ∈ d.parts ↔ part.Of d := by
  have listed : part ∈ d.parts ↔ part = .root ∨ (∃ e, d.enrich = some e ∧ part = .enrich e) ∨
      ∃ (p : Phase) (i : Nat), d.phases[i]? = some p ∧ part ∈ p.parts i := by
    rw [parts, List.mem_cons, List.mem_append, List.mem_flatMap]
    simp only [Prod.exists, List.mem_zipIdx_iff_getElem?]
    cases d.enrich <;> simp
  rw [listed]
  simp only [Phase.mem_parts_iff, SignalBlock.mem_parts_iff]
  cases part <;> simp [Part.Of]

def Part.Deserves (d : Document) (spans : List Span) : Part → Span → Prop
  | root, s => if d.errors = [] then s.status.IsWorst (d.responseStatus :: d.phases.map Phase.status)
    else s.status = .error
  | enrich _, s => s.status = .ok
  | phase _ p, s => s.status = p.status
  | signals _ _ b, s => s.status.IsWorst (b.signals.map Signal.status) ∧
    s.status.IsWorst ((spans.filter fun t => t.parent = some s.id).map (·.status))
  | signal _ _ _ _ g, s => (s.status = .error ↔ ∃ code ∈ g.exitCode, code ≠ 0) ∧ s.status ≠ .warning
  | evaluation i p _, s => ∃ upper, (phase i p, upper) ∈ d.parts.zip spans ∧
    s.parent = some upper.id ∧ s.status = upper.status

namespace Span

variable {d : Document} {part up : Part} {s t : Span}

theorem mem_zip_iff : (part, s) ∈ d.parts.zip (ofDocument d) ↔
    ∃ i : Nat, d.parts[i]? = some part ∧ (ofDocument d)[i]? = some s := by
  simp only [List.mem_iff_getElem?, List.getElem?_zip_eq_some]

theorem shown_of_mem_zip (here : (part, s) ∈ d.parts.zip (ofDocument d)) : Shown d part s :=
  (List.forall₂_iff_zip.1 (shown_ofDocument d)).2 here

theorem exists_span (member : part ∈ d.parts) : ∃ s, (part, s) ∈ d.parts.zip (ofDocument d) := by
  obtain ⟨i, inside, rfl⟩ := List.getElem_of_mem member
  have span_inside : i < (ofDocument d).length := (shown_ofDocument d).length_eq ▸ inside
  exact ⟨_, mem_zip_iff.2 ⟨i, List.getElem?_eq_getElem inside, List.getElem?_eq_getElem span_inside⟩⟩

theorem exists_part (member : s ∈ ofDocument d) : ∃ part, (part, s) ∈ d.parts.zip (ofDocument d) := by
  obtain ⟨i, hs⟩ := List.getElem?_of_mem member
  obtain ⟨part, hp⟩ := getElem?_parts hs
  exact ⟨part, mem_zip_iff.2 ⟨i, hp, hs⟩⟩

theorem exists_upper_of_mem_zip (here : (part, s) ∈ d.parts.zip (ofDocument d))
    (link : part.parent = some up) :
    ∃ upper, (up, upper) ∈ d.parts.zip (ofDocument d) ∧ s.parent = some upper.id := by
  obtain ⟨i, hp, hs⟩ := mem_zip_iff.1 here
  obtain ⟨j, upper, -, found, listed, parent, -⟩ := exists_upper hp link hs
  exact ⟨upper, mem_zip_iff.2 ⟨j, found, listed⟩, parent⟩

-- Ids tell spans apart, and with them the parts that the spans show.
theorem part_eq_of_id_eq {other : Part} (here : (part, s) ∈ d.parts.zip (ofDocument d))
    (there : (other, t) ∈ d.parts.zip (ofDocument d)) (same : s.id = t.id) : part = other := by
  obtain ⟨i, hp, hs⟩ := mem_zip_iff.1 here
  obtain ⟨j, hp', hs'⟩ := mem_zip_iff.1 there
  have ids : ((ofDocument d).map (·.id))[i]? = ((ofDocument d).map (·.id))[j]? := by
    rw [List.getElem?_map, List.getElem?_map, hs, hs', Option.map_some, Option.map_some, same]
  have inside : i < ((ofDocument d).map (·.id)).length := by
    rw [List.length_map]
    exact (List.getElem?_eq_some_iff.1 hs).1
  obtain rfl := (List.getElem?_inj inside (ids_nodup d)).1 ids
  exact Option.some.inj (hp.symm.trans hp')

theorem parent_eq_iff {upper : Span} (here : (part, s) ∈ d.parts.zip (ofDocument d))
    (above : (up, upper) ∈ d.parts.zip (ofDocument d)) :
    s.parent = some upper.id ↔ part.parent = some up := by
  have shown := shown_of_mem_zip here
  constructor
  · intro link
    cases belongs : part.parent with
    | none => simp [shown.parent, belongs] at link
    | some own =>
      obtain ⟨other, there, parent⟩ := exists_upper_of_mem_zip here belongs
      rw [parent, Option.some_inj] at link
      rw [part_eq_of_id_eq there above link]
  · intro belongs
    rw [shown.parent, belongs, Option.bind_some, (shown_of_mem_zip above).id]

theorem status_eq (here : (part, s) ∈ d.parts.zip (ofDocument d)) : s.status = part.status d := by
  obtain ⟨id, parent, t, rfl, -⟩ := (shown_of_mem_zip here).shows
  cases part <;> rfl

-- The spans below that of a block of signals are those of its signals.
theorem mem_statuses_below_iff {i : Nat} {p : Phase} {b : SignalBlock}
    (here : (Part.signals i p b, s) ∈ d.parts.zip (ofDocument d)) (status : Status) :
    status ∈ ((ofDocument d).filter fun t => t.parent = some s.id).map (·.status) ↔
      status ∈ b.signals.map Signal.status := by
  have recorded := Document.mem_parts_iff.1 (List.of_mem_zip here).1
  simp only [List.mem_map, List.mem_filter, decide_eq_true_eq]
  constructor
  · rintro ⟨t, ⟨member, below⟩, rfl⟩
    obtain ⟨part, there⟩ := exists_part member
    have belongs := (parent_eq_iff there here).1 below
    have listed := Document.mem_parts_iff.1 (List.of_mem_zip there).1
    cases part <;> cases belongs
    case signal.refl k g =>
      exact ⟨g, List.mem_of_getElem? listed.2.2, (status_eq there).symm⟩
  · rintro ⟨g, member, rfl⟩
    obtain ⟨k, found⟩ := List.getElem?_of_mem member
    obtain ⟨t, there⟩ := exists_span
      (Document.mem_parts_iff.2 (show (Part.signal i p b k g).Of d from ⟨recorded.1, recorded.2, found⟩))
    exact ⟨t, ⟨(List.of_mem_zip there).2, (parent_eq_iff there here).2 rfl⟩, status_eq there⟩

theorem deserves_of_mem_zip (here : (part, s) ∈ d.parts.zip (ofDocument d)) :
    part.Deserves d (ofDocument d) s := by
  have status := status_eq here
  cases part with
  | root =>
    rw [Part.status] at status
    simp only [Part.Deserves, status]
    split_ifs with errors
    · exact Document.isWorst_status errors
    · exact Document.status_of_errors errors
  | enrich e => exact status
  | phase i p => exact status
  | signals i p b =>
    have own : s.status.IsWorst (b.signals.map Signal.status) := by
      rw [status]
      exact Status.isWorst_worstOf _
    exact ⟨own, own.of_mem_iff (mem_statuses_below_iff here)⟩
  | signal i p b k g =>
    rw [Part.status] at status
    simp only [Part.Deserves, status]
    exact ⟨g.status_eq_error_iff, g.status_ne_warning⟩
  | evaluation i p e =>
    obtain ⟨upper, above, parent⟩ := exists_upper_of_mem_zip here rfl
    exact ⟨upper, above, parent, status.trans (status_eq above).symm⟩

theorem status_eq_error_of_refuses {i : Nat} {p : Phase} {e : Evaluation} {word : String}
    (found : d.phases[i]? = some p) (evaluated : p.evaluation = some e) (decides : e.Decides word)
    (refuses : Decision.Refuses word) (member : part ∈ [.root, .phase i p, .evaluation i p e])
    (here : (part, s) ∈ d.parts.zip (ofDocument d)) : s.status = .error := by
  have refused : p.status = .error := p.verdict_status.error.2 ⟨word, ⟨e, evaluated, decides⟩, refuses⟩
  rw [status_eq here]
  simp only [List.mem_cons, List.not_mem_nil, or_false] at member
  rcases member with rfl | rfl | rfl
  · exact Document.status_eq_error_of_phase (List.mem_of_getElem? found) refused
  · exact refused
  · exact refused

/-- Every span has the status that its part deserves. A refusal shows up to the root, and exit codes change nothing
but the spans of signals and of their blocks. -/
theorem statuses_ofDocument (d : Document) :
    List.Forall₂ (fun part s => part.Shows d s ∧ part.Deserves d (ofDocument d) s) d.parts
        (ofDocument d) ∧
      (∀ p : Phase, Decision.Verdict p.Decides p.status) ∧
      Decision.Verdict d.Responds d.responseStatus ∧
      (∀ (i : Nat) (p : Phase) (e : Evaluation) (word : String), d.phases[i]? = some p →
        p.evaluation = some e → e.Decides word → Decision.Refuses word →
        ∀ part ∈ [Part.root, .phase i p, .evaluation i p e],
          part ∈ d.parts ∧ ∀ s, (part, s) ∈ d.parts.zip (ofDocument d) → s.status = .error) ∧
      (∀ s, (Part.root, s) ∈ d.parts.zip (ofDocument d) →
        (s.status = .ok ↔
          d.errors = [] ∧ d.responseStatus = .ok ∧ ∀ p ∈ d.phases, p.status = .ok)) ∧
      ∀ other : Document, other.withoutExits = d.withoutExits →
        List.Forall₂ AlikeButExits (ofDocument other) (ofDocument d) := by
  refine ⟨?_, Phase.verdict_status, d.verdict_responseStatus, ?_, ?_, ?_⟩
  · refine List.forall₂_iff_zip.2 ⟨(shown_ofDocument d).length_eq, fun here => ⟨?_, ?_⟩⟩
    · obtain ⟨id, parent, t, shows, -⟩ := (shown_of_mem_zip here).shows
      exact ⟨id, parent, t, shows⟩
    · exact deserves_of_mem_zip here
  · intro i p e word found evaluated decides refuses part member
    refine ⟨Document.mem_parts_iff.2 ?_, fun s here =>
      status_eq_error_of_refuses found evaluated decides refuses member here⟩
    simp only [List.mem_cons, List.not_mem_nil, or_false] at member
    rcases member with rfl | rfl | rfl
    · exact trivial
    · exact found
    · exact ⟨found, evaluated⟩
  · intro s here
    rw [status_eq here, Part.status, d.status_eq_ok_iff]
  · exact fun other same => alikeButExits_ofDocument same

-- The refusal lies in an object of an object, and the second run of the signals passes.
theorem statuses_ofDocument_denied :
    let decision : Json := .object [("decision", .object [("type", .string " Deny ")])]
    let evaluation : Evaluation := { finalDecision := some decision }
    let phase (code : Int) : Phase :=
      { name := "global", evaluation := some evaluation
        signals := some { signals := [{ name := "lint", exitCode := some code }, {}] } }
    let run (code : Int) : Document :=
      { phases := [{ evaluation := some { finalDecisionType := some "ask" } }, phase code] }
    (run 1).phases[1]? = some (phase 1) ∧ evaluation.Decides " Deny " ∧
      Decision.Refuses " Deny " ∧ (run 0).withoutExits = (run 1).withoutExits ∧
      (∀ part ∈ [Part.root, .phase 1 (phase 1), .evaluation 1 (phase 1) evaluation],
        part ∈ (run 1).parts ∧
          ∀ s, (part, s) ∈ (run 1).parts.zip (ofDocument (run 1)) → s.status = .error) ∧
      List.Forall₂ AlikeButExits (ofDocument (run 0)) (ofDocument (run 1)) := by
  intro decision evaluation phase run
  have inner : Decision.Records (.object [("type", .string " Deny ")]) " Deny " :=
    .field (show Decision.keys = [] ++ "type" :: _ from rfl) (List.forall_mem_nil _) rfl (.word _)
  have decides : evaluation.Decides " Deny " :=
    .inr ⟨rfl, decision, rfl,
      .field (show Decision.keys = ["type"] ++ "decision" :: _ from rfl)
        (List.forall_mem_singleton.2 rfl) rfl inner⟩
  have refuses : Decision.Refuses " Deny " := by decide
  have same : (run 0).withoutExits = (run 1).withoutExits := rfl
  obtain ⟨-, -, -, refused, -, alike⟩ := statuses_ofDocument (run 1)
  exact ⟨rfl, decides, refuses, same, refused 1 (phase 1) evaluation " Deny " rfl rfl decides refuses,
    alike (run 0) same⟩

end Span

end Waterfall
