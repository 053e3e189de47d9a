import Waterfall.Document.Decode
import Waterfall.Proofs.Double.Whole
import Waterfall.Proofs.Records

set_option autoImplicit false

namespace Waterfall

namespace Lenient

@[simp] theorem payload_payload (v : Option Json) : payload (payload v) = payload v := by
  cases v with
  | none => rfl
  | some j => cases j <;> rfl

@[simp] theorem text?_map (o : Option String) : text? (o.map .string) = some o := by
  cases o <;> rfl

@[simp] theorem name?_string (name : String) : name? (some (.string name)) = some name := rfl

@[simp] theorem flag?_bool (flag : Bool) : flag? (some (.bool flag)) = some flag := rfl

@[simp] theorem texts?_ofStrings (texts : List String) :
    texts? (some (.ofStrings texts)) = some texts := by
  change (texts.map Json.string).mapM Json.string? = some texts
  induction texts with
  | nil => rfl
  | cons text texts ih =>
    rw [List.map_cons, List.mapM_cons, ih]
    rfl

@[simp] theorem nanos_word (n : UInt64) : nanos (some (.word n)) = n := by
  have below := n.toNat_lt
  have fits : (n.toNat : ℤ) ≤ (Json.wordMax : ℤ) := by
    change (n.toNat : ℤ) ≤ 18446744073709551615
    omega
  unfold nanos Json.word
  dsimp only
  rw [if_neg (by omega), if_pos fits, Int.toNat_natCast]
  exact UInt64.ofNat_toNat

theorem isFinite_of_number {v : Option Json} {x : Float} (h : number v = some x) :
    x.isFinite = true :=
  (Option.filter_eq_some_iff.1 h).2

@[simp] theorem number_float (v : Option Json) : number ((number v).map .float) = number v := by
  cases read : number v with
  | none => rfl
  | some x => exact Option.filter_eq_some_iff.2 ⟨rfl, isFinite_of_number read⟩

theorem number_word {n : UInt64} (settled : Double.Settled n) :
    number (some (.word n)) = some n.toFloat := by
  have made : (Scalar.ofInt n.toNat : Float) = n.toFloat := by
    rw [Scalar.ofInt, if_neg (by omega), Int.natAbs_natCast]
    change Double.nearest n.toNat = n.toFloat
    rw [Double.nearest, if_pos n.toNat_lt, UInt64.ofNat_toNat]
  refine Option.filter_eq_some_iff.2 ⟨congrArg some made, settled.finite⟩

@[simp] theorem count_word (v : Option Json) : count ((count v).map .word) = count v := by
  cases read : count v with
  | none => rfl
  | some n =>
    obtain ⟨x, -, rfl⟩ := Option.map_eq_some_iff.1 read
    generalize same : (Scalar.round x).toUInt64 = n
    have settled : Double.Settled n := same ▸ Double.settled_toUInt64 _
    change ((number (some (.word n))).filter (0.0 ≤ ·)).map _ = some n
    have kept : decide ((0.0 : Float) ≤ n.toFloat) = true := decide_eq_true settled.nonneg
    rw [number_word settled, Option.filter_some, if_pos kept, Option.map_some,
      Double.round_toFloat settled, settled.read]

theorem value_least : Double.value (-2147483648.0) = -2147483648 := by
  have made : (Scalar.ofInt (-2147483648) : Float) = -2147483648.0 := by decide
  rw [← made, (Double.whole_ofInt (by decide)).same]
  rfl

theorem value_greatest : Double.value 2147483647.0 = 2147483647 := by
  have made : (Scalar.ofInt 2147483647 : Float) = 2147483647.0 := by decide
  rw [← made, (Double.whole_ofInt (by decide)).same]
  rfl

theorem range_of_code {v : Option Json} {c : ℤ} (h : code v = some c) :
    -2147483648 ≤ c ∧ c ≤ 2147483647 := by
  obtain ⟨x, kept, rfl⟩ := Option.map_eq_some_iff.1 h
  obtain ⟨read, kept⟩ := Option.filter_eq_some_iff.1 kept
  have finite := isFinite_of_number read
  rw [Bool.and_eq_true, Bool.and_eq_true, decide_eq_true_iff, decide_eq_true_iff] at kept
  obtain ⟨⟨-, low⟩, high⟩ := kept
  rw [Double.le_iff_value (by decide) finite, value_least] at low
  rw [Double.le_iff_value finite (by decide), value_greatest] at high
  unfold Scalar.toInt
  split
  next =>
    have minus : Double.value (-x) ≤ (2147483648 : ℕ) := by
      rw [Double.value_neg]
      exact neg_le.1 low
    have below := Double.toNat_toUInt64_le ((Double.isFinite_neg x).trans finite) minus
    have clipped : (Scalar.toWord (-x)).min (Nat.pow 2 63) ≤ 2147483648 :=
      (Nat.min_le_left _ _).trans below
    omega
  next =>
    have above := Double.toNat_toUInt64_le finite (show Double.value x ≤ (2147483647 : ℕ) from high)
    have clipped : (Scalar.toWord x).min (Nat.pow 2 63 - 1) ≤ 2147483647 :=
      (Nat.min_le_left _ _).trans above
    omega

theorem code_of_range {c : ℤ} (low : -2147483648 ≤ c) (high : c ≤ 2147483647) :
    code (some (.int c)) = some c := by
  have whole := Double.whole_ofInt (show c.natAbs < 2 ^ 53 by omega)
  have read : number (some (.int c)) = some (Scalar.ofInt c) :=
    Option.filter_eq_some_iff.2 ⟨rfl, whole.finite⟩
  have least : (-2147483648.0 : Float) ≤ Scalar.ofInt c := by
    rw [Double.le_iff_value (by decide) whole.finite, value_least, whole.same]
    exact_mod_cast low
  have greatest : (Scalar.ofInt c : Float) ≤ 2147483647.0 := by
    rw [Double.le_iff_value whole.finite (by decide), value_greatest, whole.same]
    exact_mod_cast high
  unfold code
  rw [read, Option.filter_some, if_pos, Option.map_some, whole.read]
  rw [whole.trunc, Double.beq_self (Double.isNaN_of_isFinite whole.finite), decide_eq_true least, decide_eq_true greatest]
  rfl

@[simp] theorem code_int (v : Option Json) : code ((code v).map .int) = code v := by
  cases read : code v with
  | none => rfl
  | some c => exact code_of_range (range_of_code read).1 (range_of_code read).2

end Lenient

def Rereads {α : Type} (read : Json → Option α) (write : α → Json) : Prop :=
  ∀ j a, read j = some a → read (write a) = some a

section

variable {α : Type} {read : Json → Option α} {write : α → Json} (rereads : Rereads read write)

include rereads

theorem Rereads.mapM {items : List Json} {as : List α} (h : items.mapM read = some as) :
    (as.map write).mapM read = some as := by
  induction items generalizing as with
  | nil => cases h; rfl
  | cons item items ih =>
    rw [List.mapM_cons] at h
    obtain ⟨a, first, h⟩ := Option.bind_eq_some_iff.1 h
    obtain ⟨rest, later, same⟩ := Option.bind_eq_some_iff.1 h
    cases same
    rw [List.map_cons, List.mapM_cons, rereads item a first, ih later]
    rfl

theorem Rereads.list {v : Option Json} {as : List α} (h : Lenient.list? read v = some as) :
    Lenient.list? read (some (.array (as.map write))) = some as := by
  unfold Lenient.list? at h
  split at h
  next => cases h; rfl
  next => cases h; rfl
  next items => exact rereads.mapM h
  next => cases h

theorem Rereads.record (proper : ∀ a, write a ≠ .null) {v : Option Json} {o : Option α}
    (h : Lenient.record? read v = some o) : Lenient.record? read (o.map write) = some o := by
  unfold Lenient.record? at h
  split at h
  next => cases h; rfl
  next => cases h; rfl
  next j _ =>
    obtain ⟨a, first, rfl⟩ := Option.map_eq_some_iff.1 h
    change Lenient.record? read (some (write a)) = some (some a)
    unfold Lenient.record?
    split
    next absent => cases absent
    next null => exact absurd (Option.some.inj null) (proper a)
    next _ same =>
      cases same
      rw [rereads j a first]
      rfl

end

theorem rereads_of_fields {α : Type} {names : List FieldName} {read : List (Option Json) → Option α}
    {write : α → Json} {values : α → List (Option Json)} (apart : Apart names)
    (full : ∀ a, (values a).length = names.length)
    (written : ∀ a, write a = .ofFields (fieldsOf names (values a)))
    (again : ∀ given a, read given = some a → read (values a) = some a) :
    Rereads (fun j => (fieldValues? names j).bind read) write := by
  intro j a h
  obtain ⟨given, -, first⟩ := Option.bind_eq_some_iff.1 h
  change (fieldValues? names (write a)).bind read = some a
  rw [written, fieldValues?_ofFields apart (full a), Option.bind_some]
  exact again given a first

namespace Evaluation

def values (e : Evaluation) : List (Option Json) :=
  [some (.bool e.routed), some (.ofStrings e.matchedPolicies), e.exitReason.map .string, e.decisionSet,
    e.finalDecision, e.finalDecisionType.map .string]

theorem toJson_eq (e : Evaluation) : e.toJson = .ofFields (fieldsOf fieldNames e.values) := by
  simp only [toJson, fieldNames, values, optionalField_eq, fieldsOf_cons, fieldsOf_nil, Option.map_id, id_eq,
    List.append_assoc, List.append_nil]
  rfl

theorem rereads : Rereads ofJson? toJson := by
  refine rereads_of_fields (by decide) (fun _ => rfl) toJson_eq fun given e read => ?_
  unfold ofValues? at read
  split at read
  next =>
    simp only [Option.bind_eq_bind, Option.bind_eq_some_iff, Option.some.injEq] at read
    obtain ⟨routed, -, policies, -, reason, -, type, -, rfl⟩ := read
    simp [values, ofValues?]
  next => cases read

end Evaluation

namespace Signal

def values (s : Signal) : List (Option Json) :=
  [some (.string s.name), s.command.map .string, s.result, s.durationMs.map .float,
    s.exitCode.map .int]

theorem toJson_eq (s : Signal) : s.toJson = .ofFields (fieldsOf fieldNames s.values) := by
  simp only [toJson, fieldNames, values, optionalField_eq, fieldsOf_cons, fieldsOf_nil, Option.map_id, id_eq,
    List.append_assoc, List.append_nil]
  rfl

theorem rereads : Rereads ofJson? toJson := by
  refine rereads_of_fields (by decide) (fun _ => rfl) toJson_eq fun given s read => ?_
  unfold ofValues? at read
  split at read
  next =>
    simp only [Option.bind_eq_bind, Option.bind_eq_some_iff, Option.some.injEq] at read
    obtain ⟨name, -, command, -, rfl⟩ := read
    simp [values, ofValues?]
  next => cases read

end Signal

namespace SignalBlock

def values (b : SignalBlock) : List (Option Json) :=
  [b.spanId.map .string, some (.word b.start), some (.word b.finish), b.durationMs.map .float,
    some (.array (b.signals.map Signal.toJson))]

theorem toJson_eq (b : SignalBlock) : b.toJson = .ofFields (fieldsOf fieldNames b.values) := by
  simp only [toJson, fieldNames, values, optionalField_eq, fieldsOf_cons, fieldsOf_nil,
    List.append_assoc, List.append_nil]
  rfl

theorem rereads : Rereads ofJson? toJson := by
  refine rereads_of_fields (by decide) (fun _ => rfl) toJson_eq fun given b read => ?_
  unfold ofValues? at read
  split at read
  next =>
    simp only [Option.bind_eq_bind, Option.bind_eq_some_iff, Option.some.injEq] at read
    obtain ⟨id, -, signals, listed, rfl⟩ := read
    simp [values, ofValues?, Signal.rereads.list listed]
  next => cases read

end SignalBlock

namespace Phase

def values (p : Phase) : List (Option Json) :=
  [p.spanId.map .string, some (.string p.name), some (.word p.start), some (.word p.finish),
    p.durationMs.map .float, p.signals.map SignalBlock.toJson, p.evaluation.map Evaluation.toJson]

theorem toJson_eq (p : Phase) : p.toJson = .ofFields (fieldsOf fieldNames p.values) := by
  simp only [toJson, fieldNames, values, optionalField_eq, fieldsOf_cons, fieldsOf_nil,
    List.append_assoc, List.append_nil]
  rfl

theorem rereads : Rereads ofJson? toJson := by
  refine rereads_of_fields (by decide) (fun _ => rfl) toJson_eq fun given p read => ?_
  unfold ofValues? at read
  split at read
  next =>
    simp only [Option.bind_eq_bind, Option.bind_eq_some_iff, Option.some.injEq] at read
    obtain ⟨id, -, name, -, signals, block, evaluation, held, rfl⟩ := read
    simp [values, ofValues?, SignalBlock.rereads.record (fun _ => nofun) block,
      Evaluation.rereads.record (fun _ => nofun) held]
  next => cases read

end Phase

namespace Enrichment

def values (e : Enrichment) : List (Option Json) :=
  [e.spanId.map .string, some (.word e.start), some (.word e.finish), some (.ofStrings e.operations),
    e.enrichedEvent, e.durationUs.map .word, e.durationMs.map .float]

theorem toJson_eq (e : Enrichment) : e.toJson = .ofFields (fieldsOf fieldNames e.values) := by
  simp only [toJson, fieldNames, values, optionalField_eq, fieldsOf_cons, fieldsOf_nil, Option.map_id, id_eq,
    List.append_assoc, List.append_nil]
  rfl

theorem rereads : Rereads ofJson? toJson := by
  refine rereads_of_fields (by decide) (fun _ => rfl) toJson_eq fun given e read => ?_
  unfold ofValues? at read
  split at read
  next =>
    simp only [Option.bind_eq_bind, Option.bind_eq_some_iff, Option.some.injEq] at read
    obtain ⟨id, -, operations, -, rfl⟩ := read
    simp [values, ofValues?]
  next => cases read

end Enrichment

namespace Document

def values (d : Document) : List (Option Json) :=
  [d.spanId.map .string, d.traceId.map .string, d.harness, some (.word d.start), some (.word d.finish),
    d.rawEvent, d.enrich.map Enrichment.toJson, some (.array (d.phases.map Phase.toJson)), d.response,
    some (.ofStrings d.errors), d.totalDurationMs.map .word]

theorem toJson_eq (d : Document) : d.toJson = .ofFields (fieldsOf fieldNames d.values) := by
  simp only [toJson, fieldNames, values, optionalField_eq, fieldsOf_cons, fieldsOf_nil, Option.map_id, id_eq,
    List.append_assoc, List.append_nil]
  rfl

theorem rereads : Rereads ofJson? toJson := by
  refine rereads_of_fields (by decide) (fun _ => rfl) toJson_eq fun given d read => ?_
  unfold ofValues? at read
  split at read
  next =>
    simp only [Option.bind_eq_bind, Option.bind_eq_some_iff, Option.some.injEq] at read
    obtain ⟨id, -, traceId, -, enrich, prepared, phases, listed, errors, -, rfl⟩ := read
    simp [values, ofValues?, Enrichment.rereads.record (fun _ => nofun) prepared,
      Phase.rereads.list listed]
  next => cases read

end Document

/-- A document that was read, in whatever form, is read again from the form it is written in. -/
theorem Document.ofJson?_toJson {j : Json} {d : Document} (h : Document.ofJson? j = some d) :
    Document.ofJson? d.toJson = some d :=
  Document.rereads j d h

-- Records as arrays, second spellings, nulls, numerals in text, fractions and numbers out of range.
theorem Document.ofJson?_toJson_lenient :
    let j : Json := .object
      [("spanId", .null), ("trace_id", .string "t"), ("startTimeUnixNano", .string " 1700000000000000000 "),
        ("end_time_unix_nano", .float 1e30), ("enrich", .array [.string "e", .float 1.5, .int (-1)]),
        ("phases", .array [.object
          [("signals", .object [("signals", .array
            [.array [.string "s", .null, .int 1, .string "2.5e3", .float (-3.0)]])]),
          ("evaluation", .array [.bool true, .null, .string "matched"])]]),
        ("total_duration_ms", .string "1e300"), ("errors", .null)]
    ∃ d, Document.ofJson? j = some d ∧ d.finish = 18446744073709551615 ∧ d.phases.length = 1 ∧
      d.totalDurationMs = some 18446744073709551615 ∧ Document.ofJson? d.toJson = some d := by
  intro j
  have seen : (Document.ofJson? j).map (fun d => (d.finish, d.phases.length, d.totalDurationMs)) =
      some (18446744073709551615, 1, some 18446744073709551615) := by decide +kernel
  obtain ⟨d, read, values⟩ := Option.map_eq_some_iff.1 seen
  rw [Prod.mk.injEq, Prod.mk.injEq] at values
  exact ⟨d, read, values.1, values.2.1, values.2.2, Document.ofJson?_toJson read⟩

end Waterfall
