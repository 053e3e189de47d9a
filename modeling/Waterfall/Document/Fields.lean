import Waterfall.Json.Basic

set_option autoImplicit false

namespace Waterfall

/-- The two spellings of a field, which are equal for a name of one word. -/
structure FieldName where
  camel : String
  snake : String

namespace FieldName

def word (s : String) : FieldName := ⟨s, s⟩

def lookup? (name : FieldName) (fields : List (String × Json)) : Option (Option Json) :=
  match Json.field? name.camel fields with
  | none => some (Json.field? name.snake fields)
  | some v =>
    if name.camel ≠ name.snake ∧ (Json.field? name.snake fields).isSome then none else some (some v)

end FieldName

def fieldValues? (names : List FieldName) : Json → Option (List (Option Json))
  | .object fields => names.mapM (·.lookup? fields)
  | .array items =>
    if items.length ≤ names.length then
      some (items.map some ++ List.replicate (names.length - items.length) none)
    else none
  | _ => none

theorem length_fieldValues? {names : List FieldName} {j : Json} {values : List (Option Json)}
    (h : fieldValues? names j = some values) : values.length = names.length := by
  cases j with
  | object fields =>
    simp only [fieldValues?] at h
    induction names generalizing values with
    | nil => simp at h; simp [← h]
    | cons name names ih =>
      simp only [List.mapM_cons, Option.bind_eq_bind, Option.bind_eq_some_iff, Option.pure_def,
        Option.some.injEq] at h
      obtain ⟨v, _, vs, hvs, rfl⟩ := h
      simp [ih hvs]
  | array items =>
    simp only [fieldValues?] at h
    split at h
    · simp only [Option.some.injEq] at h
      subst h
      simp
      omega
    · simp at h
  | null | bool | int | float | single | string => simp [fieldValues?] at h

end Waterfall
