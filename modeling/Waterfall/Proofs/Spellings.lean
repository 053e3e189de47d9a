import Mathlib.Data.List.Forall2
import Mathlib.Data.List.Nodup
import Mathlib.Data.List.Pairwise
import Waterfall.Document.Decode

set_option autoImplicit false

namespace Waterfall

def snakeCase (name : String) : String :=
  String.ofList (name.toList.flatMap fun c => if c.isUpper then ['_', c.toLower] else [c])

namespace FieldName

def Spells (name : FieldName) (key : String) : Prop :=
  name.camel = key ∨ snakeCase name.camel = key

instance (name : FieldName) (key : String) : Decidable (name.Spells key) :=
  inferInstanceAs (Decidable (_ ∨ _))

def Unlike (a b : FieldName) : Prop :=
  ¬ b.Spells a.camel ∧ ¬ b.Spells (snakeCase a.camel)

instance (a b : FieldName) : Decidable (a.Unlike b) :=
  inferInstanceAs (Decidable (_ ∧ _))

variable {name a b : FieldName} {key : String} {fields : List (String × Json)}

theorem Unlike.not_spells (h : a.Unlike b) (spells : a.Spells key) : ¬ b.Spells key := by
  rcases spells with rfl | rfl
  · exact h.1
  · exact h.2

theorem Unlike.symm (h : a.Unlike b) : b.Unlike a :=
  ⟨fun spells => h.not_spells spells (.inl rfl), fun spells => h.not_spells spells (.inr rfl)⟩

/-- The names of a record: the second spelling is the first one in snake case, and no key spells two of them. -/
def WellSpelled (names : List FieldName) : Prop :=
  (∀ name ∈ names, name.snake = snakeCase name.camel) ∧ names.Pairwise Unlike

instance (names : List FieldName) : Decidable (WellSpelled names) :=
  inferInstanceAs (Decidable (_ ∧ _))

theorem eq_of_spells {α : Type} {parts : List (FieldName × α)}
    (names : WellSpelled (parts.map Prod.fst)) {p q : FieldName × α} (first : p ∈ parts)
    (second : q ∈ parts) (spells : p.1.Spells key) (spells' : q.1.Spells key) : p = q := by
  by_contra other
  have : Std.Symm fun p q : FieldName × α => p.1.Unlike q.1 := ⟨fun _ _ => Unlike.symm⟩
  have apart := (List.pairwise_map.1 names.2).forall first second other
  exact apart.not_spells spells spells'

def entries (name : FieldName) (fields : List (String × Json)) : List (String × Json) :=
  fields.filter fun field => name.Spells field.1

theorem entries_cons_of_spells {field : String × Json} (spells : name.Spells field.1) :
    name.entries (field :: fields) = field :: name.entries fields :=
  List.filter_cons_of_pos (decide_eq_true spells)

theorem entries_cons_of_not_spells {field : String × Json} (strange : ¬ name.Spells field.1) :
    name.entries (field :: fields) = name.entries fields :=
  List.filter_cons_of_neg (by simpa using strange)

theorem lookup_eq_none (none_left : name.entries fields = []) (spells : name.Spells key) :
    Json.lookup key fields = none := by
  induction fields with
  | nil => rfl
  | cons field rest ih =>
    obtain ⟨free, none_left⟩ := List.forall_mem_cons.1 (List.filter_eq_nil_iff.1 none_left)
    have other : field.1 ≠ key := fun same => free (decide_eq_true (same ▸ spells))
    rw [Json.lookup, if_neg other, ih (List.filter_eq_nil_iff.2 none_left)]

theorem lookup?_of_entries (regular : name.snake = snakeCase name.camel)
    (few : (name.entries fields).length ≤ 1) :
    name.lookup? fields = some ((name.entries fields).head?.map Prod.snd) := by
  induction fields with
  | nil => rfl
  | cons field rest ih =>
    obtain ⟨key, v⟩ := field
    by_cases spells : name.Spells key
    · rw [entries_cons_of_spells spells] at few ⊢
      have none_left : name.entries rest = [] :=
        List.eq_nil_of_length_eq_zero (Nat.le_zero.1 (Nat.le_of_succ_le_succ few))
      have camel := lookup_eq_none none_left (.inl rfl)
      have snake := lookup_eq_none none_left (.inr regular.symm)
      by_cases first : key = name.camel
      · by_cases second : key = name.snake
        · simp [lookup?, Json.field?, Json.lookup, ← first, ← second]
        · simp [lookup?, Json.field?, Json.lookup, ← first, second, snake]
      · have second : name.snake = key := regular.trans (spells.resolve_left (Ne.symm first))
        simp [lookup?, Json.field?, Json.lookup, first, second, camel]
    · rw [entries_cons_of_not_spells spells] at few ⊢
      have first : key ≠ name.camel := fun same => spells (.inl same.symm)
      have second : key ≠ name.snake := fun same => spells (.inr (regular ▸ same.symm))
      rw [← ih few]
      simp [lookup?, Json.field?, Json.lookup, first, second]

end FieldName

end Waterfall
