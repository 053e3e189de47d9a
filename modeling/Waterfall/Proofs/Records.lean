import Mathlib.Data.List.Nodup
import Waterfall.Document.Encode
import Waterfall.Document.Fields

set_option autoImplicit false

namespace Waterfall

namespace Json

theorem lookup_of_not_mem {key : String} {fields : List (String × Json)}
    (absent : key ∉ fields.map Prod.fst) : lookup key fields = none := by
  induction fields with
  | nil => rfl
  | cons field rest ih =>
    have other : field.1 ≠ key := fun same => absent (same ▸ List.mem_cons_self)
    exact (if_neg other).trans (ih fun member => absent (List.mem_cons_of_mem _ member))

-- Sorting keeps what is found under each key.
theorem lookup_foldl_insertField {fields : List (String × Json)}
    (apart : (fields.map Prod.fst).Nodup) (key : String) (done : List (String × Json)) :
    lookup key (fields.foldl (fun acc (k, v) => insertField k v acc) done) =
      (lookup key fields).or (lookup key done) := by
  induction fields generalizing done with
  | nil => rfl
  | cons field rest ih =>
    obtain ⟨k, v⟩ := field
    obtain ⟨absent, apart⟩ := List.nodup_cons.1 apart
    rw [List.foldl_cons, ih apart]
    by_cases same : k = key
    · subst same
      rw [lookup_of_not_mem absent, lookup_insertField_self, lookup, if_pos rfl]
      rfl
    · rw [lookup_insertField_of_ne (Ne.symm same), lookup, if_neg same]

end Json

def fieldsOf (names : List FieldName) (values : List (Option Json)) : List (String × Json) :=
  (names.zip values).filterMap fun (name, v) => v.map (name.camel, ·)

@[simp] theorem fieldsOf_nil : fieldsOf [] [] = [] := rfl

@[simp] theorem fieldsOf_cons (name : FieldName) (names : List FieldName) (v : Option Json)
    (values : List (Option Json)) :
    fieldsOf (name :: names) (v :: values) = (v.map (name.camel, ·)).toList ++ fieldsOf names values := by
  cases v <;> rfl

@[simp] theorem optionalField_eq {α : Type} (key : String) (write : α → Json) (o : Option α) :
    optionalField key write o = ((o.map write).map (key, ·)).toList := by
  cases o <;> rfl

def Apart (names : List FieldName) : Prop :=
  (names.map (·.camel)).Nodup ∧ ∀ a ∈ names, ∀ b ∈ names, a.snake = b.camel → a.camel = b.camel

instance (names : List FieldName) : Decidable (Apart names) :=
  inferInstanceAs (Decidable (_ ∧ _))

theorem keys_fieldsOf_sublist (names : List FieldName) (values : List (Option Json)) :
    ((fieldsOf names values).map Prod.fst).Sublist (names.map (·.camel)) := by
  induction names generalizing values with
  | nil => exact List.Sublist.refl _
  | cons name names ih =>
    cases values with
    | nil => exact List.nil_sublist _
    | cons v values =>
      cases v with
      | none => exact (ih values).cons _
      | some v => exact (ih values).cons_cons _

theorem lookup_fieldsOf {names : List FieldName} {values : List (Option Json)}
    (apart : (names.map (·.camel)).Nodup) {name : FieldName} {v : Option Json}
    (member : (name, v) ∈ names.zip values) :
    Json.lookup name.camel (fieldsOf names values) = v := by
  induction names generalizing values with
  | nil => cases member
  | cons first names ih =>
    cases values with
    | nil => cases member
    | cons w values =>
      obtain ⟨absent, apart⟩ := List.nodup_cons.1 apart
      have elsewhere {key : String} (other : first.camel ≠ key) :
          Json.lookup key (fieldsOf (first :: names) (w :: values)) =
            Json.lookup key (fieldsOf names values) := by
        cases w with
        | none => rfl
        | some w => exact if_neg other
      obtain same | later := List.mem_cons.1 member
      · cases same
        cases v with
        | none =>
          exact Json.lookup_of_not_mem fun held =>
            absent ((keys_fieldsOf_sublist names values).subset held)
        | some v => exact if_pos rfl
      · have other : first.camel ≠ name.camel := fun same =>
          absent (List.mem_map.2 ⟨name, (List.of_mem_zip later).1, same.symm⟩)
        rw [elsewhere other]
        exact ih apart later

theorem mapM_eq_some_of_zip {α β : Type} {f : α → Option β} {as : List α} {bs : List β}
    (full : bs.length = as.length) (each : ∀ p ∈ as.zip bs, f p.1 = some p.2) :
    as.mapM f = some bs := by
  induction as generalizing bs with
  | nil => rw [List.eq_nil_of_length_eq_zero full]; rfl
  | cons a as ih =>
    obtain ⟨b, bs, rfl⟩ := List.exists_cons_of_length_eq_add_one full
    have rest := ih (Nat.succ.inj full) fun p member => each p (List.mem_cons_of_mem _ member)
    rw [List.mapM_cons, each (a, b) List.mem_cons_self, rest]
    rfl

theorem fieldValues?_ofFields {names : List FieldName} (apart : Apart names)
    {values : List (Option Json)} (full : values.length = names.length) :
    fieldValues? names (.ofFields (fieldsOf names values)) = some values := by
  obtain ⟨distinct, unmixed⟩ := apart
  have keys : ((fieldsOf names values).map Prod.fst).Nodup :=
    distinct.sublist (keys_fieldsOf_sublist names values)
  have found (key : String) : Json.field? key
      ((fieldsOf names values).foldl (fun acc (k, v) => Json.insertField k v acc) []) =
        Json.lookup key (fieldsOf names values) := by
    rw [Json.field?, Json.lookup_foldl_insertField keys]
    exact Option.or_none
  have each : ∀ p ∈ names.zip values, p.1.lookup?
      ((fieldsOf names values).foldl (fun acc (k, v) => Json.insertField k v acc) []) = some p.2 := by
    rintro ⟨name, v⟩ member
    -- The second spelling is not there, unless it is the first one too.
    have snake : name.camel ≠ name.snake → Json.lookup name.snake (fieldsOf names values) = none := by
      intro spelled
      refine Json.lookup_of_not_mem fun held => ?_
      obtain ⟨b, listed, same⟩ := List.mem_map.1 ((keys_fieldsOf_sublist names values).subset held)
      exact spelled ((unmixed name (List.of_mem_zip member).1 b listed same.symm).trans same)
    have camel := lookup_fieldsOf distinct member
    unfold FieldName.lookup?
    rw [found, found, camel]
    cases v with
    | none =>
      by_cases spelled : name.camel = name.snake
      · exact congrArg some (spelled ▸ camel)
      · exact congrArg some (snake spelled)
    | some v =>
      refine if_neg fun both => ?_
      rw [snake both.1] at both
      exact Bool.false_ne_true both.2
  exact mapM_eq_some_of_zip full each

end Waterfall
