import Waterfall.Proofs.Decisions

set_option autoImplicit false

namespace Waterfall

namespace Json

variable {α : Type} {key : String} {value : α} {fields : List (String × α)}

theorem mem_of_lookup (found : lookup key fields = some value) : (key, value) ∈ fields := by
  induction fields with
  | nil => cases found
  | cons field rest ih =>
    rw [lookup] at found
    split_ifs at found with same
    · cases found
      exact same ▸ List.mem_cons_self
    · exact List.mem_cons_of_mem _ (ih found)

theorem lookup_filter {p : String × α → Bool} (found : lookup key fields = some value)
    (passes : p (key, value) = true) : lookup key (fields.filter p) = some value := by
  induction fields with
  | nil => cases found
  | cons field rest ih =>
    obtain ⟨k, v⟩ := field
    rw [lookup] at found
    rw [List.filter_cons]
    split_ifs at found with same
    · cases found
      cases same
      rw [if_pos passes, lookup, if_pos rfl]
    · split_ifs
      · rw [lookup, if_neg same]
        exact ih found
      · exact ih found

end Json

namespace Decision

def Recorded (fields : List (String × Json)) : Prop :=
  ∃ key ∈ keys, ∃ word, Json.field? key fields = some (.string word)

def first? (fields : List (String × Json)) : Option Json :=
  keys.findSome? fun key => held? key fields

/-- The search goes from object to object, to one that holds nothing under the keys and is no tag. -/
inductive DeadEnd : Json → Prop where
  | here {fields : List (String × Json)} (nowhere : first? fields = none)
      (untagged : tag? fields = none) : DeadEnd (.object fields)
  | deeper {fields : List (String × Json)} {payload : Json} (first : first? fields = some payload)
      (inner : DeadEnd payload) : DeadEnd (.object fields)

section

variable {fields : List (String × Json)} {payload : Json} {key : String}

theorem mayHold_of_held (held : held? key fields = some payload) : mayHold payload = true :=
  (List.mem_filter.1 (Json.mem_of_lookup held)).2

theorem ofJson?_object (fields : List (String × Json)) :
    ofJson? (.object fields) = (first? fields).elim (tag? fields) ofJson? := by
  have search : (keys.findSome? fun key => Json.lookup key (ofFields fields)) =
      (first? fields).map ofJson? := by
    simp only [lookup_ofFields]
    exact List.map_findSome?.symm
  rw [ofJson?, search]
  cases first? fields <;> rfl

theorem first?_cases (first : first? fields = some payload) :
    (∃ word, payload = .string word) ∨ ∃ inner, payload = .object inner ∧ sizeOf inner < sizeOf fields := by
  obtain ⟨key, -, held⟩ := List.exists_of_findSome?_eq_some first
  have smaller := sizeOf_held held
  cases payload with
  | string word => exact .inl ⟨word, rfl⟩
  | object inner => exact .inr ⟨inner, rfl, by simp at smaller; omega⟩
  | _ => cases mayHold_of_held held

theorem deadEnd_of_ofJson? {fields : List (String × Json)} (lost : ofJson? (.object fields) = none) :
    DeadEnd (.object fields) := by
  rw [ofJson?_object] at lost
  cases first : first? fields with
  | none =>
    rw [first] at lost
    exact .here first lost
  | some payload =>
    rw [first] at lost
    obtain ⟨word, rfl⟩ | ⟨inner, rfl, smaller⟩ := first?_cases first
    · cases lost
    · exact .deeper first (deadEnd_of_ofJson? lost)
termination_by sizeOf fields

theorem ofJson?_eq_none_iff : ofJson? (.object fields) = none ↔ DeadEnd (.object fields) := by
  refine ⟨deadEnd_of_ofJson?, fun deadEnd => ?_⟩
  generalize Json.object fields = payload at deadEnd
  induction deadEnd with
  | here nowhere untagged => rw [ofJson?_object, nowhere]; exact untagged
  | deeper first _ ih => rw [ofJson?_object, first]; exact ih

theorem first?_ne_none (recorded : Recorded fields) : first? fields ≠ none := by
  obtain ⟨key, listed, word, text⟩ := recorded
  have held : held? key fields = some (.string word) := Json.lookup_filter text rfl
  intro nowhere
  rw [first?, List.findSome?_eq_none_iff] at nowhere
  rw [nowhere key listed] at held
  cases held

/-- A recorded decision is lost exactly if the first of the keys that holds a text or an object holds an object
where the search ends without one. -/
theorem lost_iff_deadEnd (recorded : Recorded fields) :
    (ofJson? (.object fields) = none ↔ ∃ inner, first? fields = some (.object inner) ∧ DeadEnd (.object inner)) ∧
      ((∀ key ∈ keys, ∀ inner, held? key fields ≠ some (.object inner)) →
        ∃ word, first? fields = some (.string word) ∧ ofJson? (.object fields) = some word) := by
  obtain ⟨payload, first⟩ := Option.ne_none_iff_exists'.1 (first?_ne_none recorded)
  rw [ofJson?_object, first, Option.elim_some]
  obtain ⟨word, rfl⟩ | ⟨inner, rfl, -⟩ := first?_cases first
  · have found : ofJson? (.string word) ≠ none := Option.some_ne_none word
    refine ⟨⟨fun lost => absurd lost found, ?_⟩, fun _ => ⟨word, rfl, rfl⟩⟩
    rintro ⟨inner, ⟨⟩, -⟩
  · constructor
    · rw [ofJson?_eq_none_iff]
      constructor
      · intro deadEnd
        exact ⟨inner, rfl, deadEnd⟩
      · rintro ⟨_, ⟨⟩, deadEnd⟩
        exact deadEnd
    · intro flat
      obtain ⟨key, listed, held⟩ := List.exists_of_findSome?_eq_some first
      exact absurd held (flat key listed inner)

theorem lost_iff_deadEnd_nested :
    let hidden : List (String × Json) :=
      [("decision", .string "deny"), ("type", .object [("decision", .object []), ("type", .null)])]
    let plain : List (String × Json) := [("decision", .string "deny"), ("type", .null)]
    Recorded hidden ∧ ofJson? (.object hidden) = none ∧
      Recorded plain ∧ (∀ key ∈ keys, ∀ inner, held? key plain ≠ some (.object inner)) ∧
      ofJson? (.object plain) = some "deny" := by
  intro hidden plain
  have recorded : Recorded hidden := ⟨"decision", by decide, "deny", by rfl⟩
  have recorded' : Recorded plain := ⟨"decision", by decide, "deny", by rfl⟩
  have first : first? [("decision", .object []), ("type", .null)] = some (.object []) := by rfl
  have deadEnd : DeadEnd (.object [("decision", .object []), ("type", .null)]) :=
    .deeper first (.here (by rfl) (by rfl))
  have flat : ∀ key ∈ keys, ∀ inner, held? key plain ≠ some (.object inner) := by
    intro key _ inner held
    have listed := Json.mem_of_lookup held
    simp [plain, mayHold] at listed
  obtain ⟨word, listed, found⟩ := (lost_iff_deadEnd recorded').2 flat
  have same : first? plain = some (.string "deny") := by rfl
  rw [same] at listed
  cases listed
  exact ⟨recorded, (lost_iff_deadEnd recorded).1.2 ⟨_, by rfl, deadEnd⟩, recorded', flat, found⟩

-- Behind an empty object a refusal is lost, and the phase counts as fine.
theorem refusal_lost :
    let fields : List (String × Json) := [("decision", .string "deny"), ("type", .object [])]
    let evaluation : Evaluation := { finalDecision := some (.object fields) }
    Recorded fields ∧ Refuses "deny" ∧ ofJson? (.object fields) = none ∧ evaluation.status = .ok := by
  intro fields evaluation
  have recorded : Recorded fields := ⟨"decision", by decide, "deny", by rfl⟩
  exact ⟨recorded, by decide, by rfl, by rfl⟩

end

end Decision

end Waterfall
