import Mathlib
import Waterfall.Decision

set_option autoImplicit false

namespace Waterfall

namespace Status

/-- The status of a group: as bad as each of its members, and no worse than one of them or than
`ok`. -/
def IsWorst (w : Status) (statuses : List Status) : Prop :=
  (∀ s ∈ statuses, s.rank ≤ w.rank) ∧ (w ∈ statuses ∨ w = .ok)

theorem rank_injective : Function.Injective rank := by
  intro a b same
  cases a <;> cases b <;> first | rfl | cases same

theorem rank_le_error (s : Status) : s.rank ≤ error.rank := by
  cases s <;> decide

theorem worst_eq_or (a b : Status) : worst a b = a ∨ worst a b = b := by
  unfold worst
  split
  · exact .inr rfl
  · exact .inl rfl

theorem ok_worst (s : Status) : ok.worst s = s := by
  cases s <;> rfl

theorem error_worst (s : Status) : error.worst s = error := by
  cases s <;> rfl

theorem worst_assoc (a b c : Status) : (a.worst b).worst c = a.worst (b.worst c) := by
  apply rank_injective
  simp only [rank_worst, max_assoc]

theorem foldl_worst (first : Status) (rest : List Status) :
    rest.foldl worst first = first.worst (worstOf rest) := by
  induction rest generalizing first with
  | nil => cases first <;> rfl
  | cons s rest ih =>
    have listed : worstOf (s :: rest) = s.worst (worstOf rest) := by
      rw [worstOf, List.foldl_cons, ok_worst, ih]
    rw [List.foldl_cons, ih, worst_assoc, listed]

theorem worstOf_cons (s : Status) (rest : List Status) :
    worstOf (s :: rest) = s.worst (worstOf rest) := by
  rw [worstOf, List.foldl_cons, ok_worst, foldl_worst]

namespace IsWorst

variable {w : Status} {statuses others : List Status}

theorem of_mem_iff (worst : w.IsWorst statuses) (same : ∀ s, s ∈ others ↔ s ∈ statuses) :
    w.IsWorst others :=
  ⟨fun s here => worst.1 s ((same s).1 here), worst.2.imp_left (same w).2⟩

theorem cons (worst : w.IsWorst statuses) (s : Status) : (s.worst w).IsWorst (s :: statuses) := by
  refine ⟨fun t here => ?_, ?_⟩
  · rw [rank_worst]
    rcases List.mem_cons.1 here with rfl | here
    · exact le_max_left _ _
    · exact (worst.1 t here).trans (le_max_right _ _)
  · rcases worst_eq_or s w with first | rest
    · exact .inl (by simp [first])
    · rw [rest]
      exact worst.2.imp_left (List.mem_cons_of_mem s)

theorem eq_error_of_mem (worst : w.IsWorst statuses) (member : .error ∈ statuses) : w = .error :=
  rank_injective (Nat.le_antisymm w.rank_le_error (worst.1 _ member))

theorem eq_ok_iff (worst : w.IsWorst statuses) : w = .ok ↔ ∀ s ∈ statuses, s = .ok := by
  constructor
  · rintro rfl s here
    exact rank_injective (Nat.le_zero.1 (worst.1 s here))
  · intro all
    exact worst.2.elim (all w) id

end IsWorst

theorem isWorst_worstOf (statuses : List Status) : (worstOf statuses).IsWorst statuses := by
  induction statuses with
  | nil => exact ⟨List.forall_mem_nil _, .inr rfl⟩
  | cons s rest ih =>
    rw [worstOf_cons]
    exact ih.cons s

end Status

namespace Decision

def Means (word meaning : String) : Prop :=
  (trim word).toList.map Char.toLower = meaning.toList

def Refuses (word : String) : Prop :=
  Means word "block" ∨ Means word "halt" ∨ Means word "deny"

instance (word meaning : String) : Decidable (Means word meaning) :=
  inferInstanceAs (Decidable (_ = _))

instance (word : String) : Decidable (Refuses word) :=
  inferInstanceAs (Decidable (_ ∨ _ ∨ _))

structure Verdict (decides : String → Prop) (status : Status) : Prop where
  error : status = .error ↔ ∃ word, decides word ∧ Refuses word
  warning : status = .warning ↔ ∃ word, decides word ∧ Means word "ask"

theorem sameWord_iff {word meaning : String}
    (lower : meaning.toList.map Char.toLower = meaning.toList) :
    sameWord (trim word) meaning = true ↔ Means word meaning := by
  rw [sameWord, Means, lower, decide_eq_true_iff]

theorem classify_eq_error_iff (word : String) : classify (some word) = .error ↔ Refuses word := by
  have refuses : ["block", "halt", "deny"].any (sameWord (trim word)) = true ↔ Refuses word := by
    simp only [List.any_cons, List.any_nil, Bool.or_false, Bool.or_eq_true, Refuses]
    rw [sameWord_iff (by decide), sameWord_iff (by decide), sameWord_iff (by decide)]
  rw [classify, classifyWord, ← refuses]
  split_ifs <;> simp [*]

theorem not_refuses_of_asks {word : String} (asks : Means word "ask") : ¬ Refuses word := by
  unfold Refuses Means at *
  rw [asks]
  decide

theorem classify_eq_warning_iff (word : String) :
    classify (some word) = .warning ↔ Means word "ask" := by
  have error_iff := classify_eq_error_iff word
  rw [classify, classifyWord] at error_iff ⊢
  split_ifs at error_iff ⊢ with refusal question
  · simpa using fun asks => not_refuses_of_asks asks (error_iff.1 rfl)
  · simpa using (sameWord_iff (by decide)).1 question
  · simpa using fun asks => question ((sameWord_iff (by decide)).2 asks)

theorem verdict_classify {decides : String → Prop} {decision : Option String}
    (recorded : ∀ word, decision = some word ↔ decides word) :
    Verdict decides (classify decision) := by
  simp only [funext fun word => propext (recorded word).symm]
  cases decision with
  | none => constructor <;> simp [classify]
  | some word =>
    constructor
    · simpa using classify_eq_error_iff word
    · simpa using classify_eq_warning_iff word

-- Only a text or an object may hold a decision.
def mayHold : Json → Bool
  | .string _ | .object _ => true
  | _ => false

def held? (key : String) (fields : List (String × Json)) : Option Json :=
  Json.lookup key (fields.filter fun field => mayHold field.2)

/-- A payload records a decision as a bare word, in the first of the keys that holds a text or an
object, or as the only key of an object if that is a known word. -/
inductive Records : Json → String → Prop where
  | word (word : String) : Records (.string word) word
  | field {fields : List (String × Json)} {before after : List String} {key : String} {payload : Json}
      {word : String} (order : keys = before ++ key :: after)
      (first : ∀ k ∈ before, held? k fields = none) (held : held? key fields = some payload)
      (inner : Records payload word) : Records (.object fields) word
  | tag {key : String} {payload : Json} (known : words.any (sameWord key) = true)
      (nowhere : ∀ k ∈ keys, held? k [(key, payload)] = none) :
      Records (.object [(key, payload)]) key

theorem lookup_ofFields (key : String) (fields : List (String × Json)) :
    Json.lookup key (ofFields fields) = (held? key fields).map ofJson? := by
  induction fields with
  | nil => rfl
  | cons field rest ih =>
    obtain ⟨k, v⟩ := field
    have step (holds : mayHold v = true) :
        Json.lookup key ((k, ofJson? v) :: ofFields rest) =
          (held? key ((k, v) :: rest)).map ofJson? := by
      rw [held?, List.filter_cons, if_pos holds, Json.lookup, Json.lookup, ih, held?]
      split_ifs <;> rfl
    cases v <;> simp only [ofFields]
    case string s => exact step rfl
    case object inner => exact step rfl
    all_goals exact ih

theorem findSome?_held_iff {fields : List (String × Json)} {found : Option String} :
    (keys.findSome? fun key => Json.lookup key (ofFields fields)) = some found ↔
      ∃ before key after payload, keys = before ++ key :: after ∧
        (∀ k ∈ before, held? k fields = none) ∧ held? key fields = some payload ∧
        ofJson? payload = found := by
  rw [List.findSome?_eq_some_iff]
  simp only [lookup_ofFields, Option.map_eq_some_iff, Option.map_eq_none_iff]
  constructor
  · rintro ⟨before, key, after, order, ⟨payload, held, gives⟩, first⟩
    exact ⟨before, key, after, payload, order, first, held, gives⟩
  · rintro ⟨before, key, after, payload, order, first, held, gives⟩
    exact ⟨before, key, after, order, ⟨payload, held, gives⟩, first⟩

theorem findSome?_held_eq_none_iff {fields : List (String × Json)} :
    (keys.findSome? fun key => Json.lookup key (ofFields fields)) = none ↔
      ∀ k ∈ keys, held? k fields = none := by
  simp only [List.findSome?_eq_none_iff, lookup_ofFields, Option.map_eq_none_iff]

theorem tag?_eq_some_iff {fields : List (String × Json)} {word : String} :
    tag? fields = some word ↔
      ∃ payload, fields = [(word, payload)] ∧ words.any (sameWord word) = true := by
  unfold tag?
  split
  · next key payload =>
    split_ifs with known
    · constructor
      · rintro ⟨⟩
        exact ⟨payload, rfl, known⟩
      · rintro ⟨_, same, _⟩
        cases same
        rfl
    · simp only [false_iff]
      rintro ⟨_, same, known_word⟩
      cases same
      exact known known_word
  · next other =>
    simp only [reduceCtorEq, false_iff]
    rintro ⟨payload, rfl, -⟩
    exact other word payload rfl

theorem sizeOf_held {key : String} {fields : List (String × Json)} {payload : Json}
    (held : held? key fields = some payload) : sizeOf payload < sizeOf fields := by
  induction fields with
  | nil => cases held
  | cons field rest ih =>
    obtain ⟨k, v⟩ := field
    have later (held : held? key rest = some payload) : sizeOf payload < sizeOf ((k, v) :: rest) := by
      have := ih held
      simp
      omega
    rw [held?, List.filter_cons] at held
    split_ifs at held
    · rw [Json.lookup] at held
      split_ifs at held
      · cases held
        simp
        omega
      · exact later held
    · exact later held

theorem records_of_ofJson? {payload : Json} {word : String} (found : ofJson? payload = some word) :
    Records payload word := by
  match payload with
  | .string s =>
    rw [ofJson?, Option.some_inj] at found
    exact found ▸ .word s
  | .object fields =>
    rw [ofJson?] at found
    split at found
    · next inner search =>
      obtain ⟨before, key, after, payload, order, first, held, gives⟩ := findSome?_held_iff.1 search
      have smaller := sizeOf_held held
      exact .field order first held (records_of_ofJson? (gives.trans found))
    · next search =>
      obtain ⟨payload, rfl, known⟩ := tag?_eq_some_iff.1 found
      exact .tag known (findSome?_held_eq_none_iff.1 search)
  | .null | .bool _ | .int _ | .float _ | .single _ | .array _ => cases found
termination_by sizeOf payload

theorem ofJson?_eq_some_iff {payload : Json} {word : String} :
    ofJson? payload = some word ↔ Records payload word := by
  refine ⟨records_of_ofJson?, fun records => ?_⟩
  induction records with
  | word s => rfl
  | field order first held _ ih =>
    rw [ofJson?, findSome?_held_iff.2 ⟨_, _, _, _, order, first, held, rfl⟩]
    exact ih
  | tag known nowhere =>
    rw [ofJson?, findSome?_held_eq_none_iff.2 nowhere]
    exact tag?_eq_some_iff.2 ⟨_, rfl, known⟩

end Decision

def Evaluation.Decides (e : Evaluation) (word : String) : Prop :=
  e.finalDecisionType = some word ∨
    e.finalDecisionType = none ∧ ∃ payload ∈ e.finalDecision, Decision.Records payload word

theorem Evaluation.decision?_eq_some_iff {e : Evaluation} {word : String} :
    e.decision? = some word ↔ e.Decides word := by
  unfold decision? Decides
  cases e.finalDecisionType with
  | some type => simp
  | none => simp [Option.bind_eq_some_iff, Decision.ofJson?_eq_some_iff]

end Waterfall
