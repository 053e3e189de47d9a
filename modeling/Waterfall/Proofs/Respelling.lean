import Waterfall.Proofs.Spellings

set_option autoImplicit false

namespace Waterfall

namespace Respelled

abbrev Parts := List (FieldName × (Json → Json → Prop))

inductive Field (parts : Parts) : String × Json → String × Json → Prop
  | known {name : FieldName} {alike : Json → Json → Prop} {key key' : String} {v v' : Json}
    (listed : (name, alike) ∈ parts) (spells : name.Spells key) (spells' : name.Spells key')
    (values : alike v v') : Field parts (key, v) (key', v')
  | unknown {field : String × Json} (strange : ∀ part ∈ parts, ¬ part.1.Spells field.1) :
    Field parts field field

theorem Field.listed {parts : Parts} {name : FieldName} {alike : Json → Json → Prop} {key key' : String}
    {v v' : Json} (n : Nat) (listed : parts[n]? = some (name, alike)) (spells : name.Spells key)
    (spells' : name.Spells key') (values : alike v v') : Field parts (key, v) (key', v') :=
  .known (List.mem_of_getElem? listed) spells spells' values

def Pointwise {α : Type} : List (α → α → Prop) → List α → List α → Prop
  | alike :: relations, a :: as, b :: bs => alike a b ∧ Pointwise relations as bs
  | _, [], [] => True
  | [], as, bs => as = bs
  | _, _, _ => False

/-- A record before and after some of its fields are renamed, in any order of the fields. Afterwards no key
is there twice, and no field under both of its names. -/
inductive Record (parts : Parts) : Json → Json → Prop
  | same (j : Json) : Record parts j j
  | object {fields renamed fields' : List (String × Json)}
    (each : List.Forall₂ (Field parts) fields renamed) (order : renamed.Perm fields')
    (distinct : (fields'.map Prod.fst).Nodup)
    (once : ∀ part ∈ parts, part.1.camel ≠ snakeCase part.1.camel →
      ¬ (part.1.camel ∈ fields'.map Prod.fst ∧ snakeCase part.1.camel ∈ fields'.map Prod.fst)) :
    Record parts (.object fields) (.object fields')
  | array {items items' : List Json} (each : Pointwise (parts.map Prod.snd) items items') :
    Record parts (.array items) (.array items')

inductive Items (alike : Json → Json → Prop) : Json → Json → Prop
  | same (j : Json) : Items alike j j
  | array {items items' : List Json} (each : List.Forall₂ alike items items') :
    Items alike (.array items) (.array items')

variable {parts : Parts} {fields fields' : List (String × Json)}

theorem entries_length_le_one {name : FieldName} (distinct : (fields.map Prod.fst).Nodup)
    (once : name.camel ≠ snakeCase name.camel →
      ¬ (name.camel ∈ fields.map Prod.fst ∧ snakeCase name.camel ∈ fields.map Prod.fst)) :
    (name.entries fields).length ≤ 1 := by
  have spelled : ∀ field ∈ name.entries fields, field ∈ fields ∧ name.Spells field.1 :=
    fun field member => ⟨List.mem_of_mem_filter member, of_decide_eq_true (List.mem_filter.1 member).2⟩
  have apart : ((name.entries fields).map Prod.fst).Nodup :=
    distinct.sublist (List.filter_sublist.map Prod.fst)
  match found : name.entries fields with
  | [] => exact Nat.zero_le _
  | [_] => exact Nat.le_refl 1
  | p :: q :: rest =>
    rw [found] at spelled apart
    obtain ⟨here, first⟩ := spelled p (by simp)
    obtain ⟨here', second⟩ := spelled q (by simp)
    have other : p.1 ≠ q.1 := fun same => by simp [same] at apart
    have held := List.mem_map_of_mem (f := Prod.fst) here
    have held' := List.mem_map_of_mem (f := Prod.fst) here'
    rcases first with camel | snake <;> rcases second with camel' | snake'
    · exact absurd (camel.symm.trans camel') other
    · exact absurd ⟨camel ▸ held, snake' ▸ held'⟩ (once fun same =>
        other (camel.symm.trans (same.trans snake')))
    · exact absurd ⟨camel' ▸ held', snake ▸ held⟩ (once fun same =>
        other (snake.symm.trans (same.symm.trans camel')))
    · exact absurd (snake.symm.trans snake') other

theorem Field.spells_iff (names : FieldName.WellSpelled (parts.map Prod.fst))
    {part : FieldName × (Json → Json → Prop)} (member : part ∈ parts) {p q : String × Json}
    (h : Field parts p q) : part.1.Spells p.1 ↔ part.1.Spells q.1 := by
  cases h with
  | known listed spells spells' values =>
    constructor
    · intro first
      rwa [← FieldName.eq_of_spells names listed member spells first]
    · intro second
      rwa [← FieldName.eq_of_spells names listed member spells' second]
  | unknown => exact Iff.rfl

theorem Field.values (names : FieldName.WellSpelled (parts.map Prod.fst))
    {part : FieldName × (Json → Json → Prop)} (member : part ∈ parts) {p q : String × Json}
    (h : Field parts p q) (spells : part.1.Spells p.1) : part.2 p.2 q.2 := by
  cases h with
  | known listed spells' _ values =>
    rwa [FieldName.eq_of_spells names member listed spells spells']
  | unknown strange => exact absurd spells (strange part member)

theorem entries_renamed (names : FieldName.WellSpelled (parts.map Prod.fst))
    {part : FieldName × (Json → Json → Prop)} (member : part ∈ parts)
    {renamed : List (String × Json)} (each : List.Forall₂ (Field parts) fields renamed) :
    List.Forall₂ (fun p q => part.2 p.2 q.2) (part.1.entries fields) (part.1.entries renamed) := by
  induction each with
  | nil => exact .nil
  | @cons p q _ _ field each ih =>
    have both := field.spells_iff names member
    by_cases spells : part.1.Spells p.1
    · rw [FieldName.entries_cons_of_spells spells, FieldName.entries_cons_of_spells (both.1 spells)]
      exact .cons (field.values names member spells) ih
    · rw [FieldName.entries_cons_of_not_spells spells,
        FieldName.entries_cons_of_not_spells (mt both.2 spells)]
      exact ih

-- At most one entry is left after renaming, so there was at most one before.
theorem lookup?_renamed (names : FieldName.WellSpelled (parts.map Prod.fst))
    {part : FieldName × (Json → Json → Prop)} (member : part ∈ parts)
    {renamed : List (String × Json)} (each : List.Forall₂ (Field parts) fields renamed)
    (order : renamed.Perm fields') (few : (part.1.entries fields').length ≤ 1) :
    ∃ v v', part.1.lookup? fields = some v ∧ part.1.lookup? fields' = some v' ∧
      Option.Rel part.2 v v' := by
  have moved : (part.1.entries renamed).Perm (part.1.entries fields') := order.filter _
  have related := entries_renamed names member each
  have few_before : (part.1.entries fields).length ≤ 1 :=
    (related.length_eq.trans moved.length_eq).symm ▸ few
  have regular := names.1 part.1 (List.mem_map_of_mem member)
  refine ⟨_, _, FieldName.lookup?_of_entries regular few_before,
    FieldName.lookup?_of_entries regular few, ?_⟩
  generalize part.1.entries fields = before at related
  generalize part.1.entries renamed = between at related moved
  generalize part.1.entries fields' = after at moved few
  cases related with
  | nil =>
    rw [List.nil_perm.1 moved]
    exact .none
  | @cons p q _ rest values related =>
    have alone : rest = [] := List.eq_nil_of_length_eq_zero (by
      have := moved.length_eq
      simp only [List.length_cons] at this
      omega)
    subst alone
    cases related
    rw [← List.singleton_perm.1 moved]
    exact .some values

theorem mapM_lookup? {fields : List (String × Json)} (found : ∀ part ∈ parts,
    ∃ v v', part.1.lookup? fields = some v ∧ part.1.lookup? fields' = some v' ∧
      Option.Rel part.2 v v') :
    ∃ vs vs', fieldValues? (parts.map Prod.fst) (.object fields) = some vs ∧
      fieldValues? (parts.map Prod.fst) (.object fields') = some vs' ∧
      Pointwise (parts.map fun part => Option.Rel part.2) vs vs' := by
  simp only [fieldValues?]
  induction parts with
  | nil => exact ⟨[], [], rfl, rfl, trivial⟩
  | cons part parts ih =>
    obtain ⟨v, v', here, here', related⟩ := found part List.mem_cons_self
    obtain ⟨vs, vs', rest, rest', pointwise⟩ :=
      ih fun part member => found part (List.mem_cons_of_mem _ member)
    refine ⟨v :: vs, v' :: vs', ?_, ?_, related, pointwise⟩
    · rw [List.map_cons, List.mapM_cons, here, rest]
      rfl
    · rw [List.map_cons, List.mapM_cons, here', rest']
      rfl

theorem Pointwise.padded {relations : List (Json → Json → Prop)} {items items' : List Json}
    (h : Pointwise relations items items') (fits : items.length ≤ relations.length) :
    items'.length = items.length ∧ Pointwise (relations.map Option.Rel)
      (items.map some ++ List.replicate (relations.length - items.length) none)
      (items'.map some ++ List.replicate (relations.length - items'.length) none) := by
  fun_induction Pointwise relations items items' with
  | case1 alike relations a as b bs ih =>
    obtain ⟨same, rest⟩ := ih h.2 (Nat.le_of_succ_le_succ fits)
    refine ⟨congrArg (· + 1) same, ?_⟩
    simp only [List.length_cons, Nat.add_sub_add_right]
    exact ⟨.some h.1, rest⟩
  | case2 relations =>
    refine ⟨rfl, ?_⟩
    induction relations with
    | nil => trivial
    | cons alike relations ih => exact ⟨.none, ih (Nat.zero_le _)⟩
  | case3 as bs =>
    subst h
    have none_left : as = [] := List.eq_nil_of_length_eq_zero (Nat.le_zero.1 fits)
    subst none_left
    exact ⟨rfl, trivial⟩
  | case4 => exact h.elim

theorem Pointwise.length_eq {relations : List (Json → Json → Prop)} {items items' : List Json}
    (h : Pointwise relations items items') : items'.length = items.length := by
  fun_induction Pointwise relations items items' with
  | case1 alike relations a as b bs ih => exact congrArg (· + 1) (ih h.2)
  | case2 => rfl
  | case3 => rw [h]
  | case4 => exact h.elim

theorem Record.bind_eq {α : Type} (parts : Parts) {read : List (Option Json) → Option α}
    (names : FieldName.WellSpelled (parts.map Prod.fst))
    (respects : ∀ vs vs', vs.length = parts.length → vs'.length = parts.length →
      Pointwise (parts.map fun part => Option.Rel part.2) vs vs' → read vs = read vs')
    {j j' : Json} (h : Record parts j j') :
    (fieldValues? (parts.map Prod.fst) j).bind read =
      (fieldValues? (parts.map Prod.fst) j').bind read := by
  have reads {vs vs' : List (Option Json)}
      (values : fieldValues? (parts.map Prod.fst) j = some vs)
      (values' : fieldValues? (parts.map Prod.fst) j' = some vs')
      (related : Pointwise (parts.map fun part => Option.Rel part.2) vs vs') :
      (fieldValues? (parts.map Prod.fst) j).bind read =
        (fieldValues? (parts.map Prod.fst) j').bind read := by
    have full := length_fieldValues? values
    have full' := length_fieldValues? values'
    rw [List.length_map] at full full'
    rw [values, values', Option.bind_some, Option.bind_some, respects vs vs' full full' related]
  cases h with
  | same => rfl
  | object each order distinct once =>
    obtain ⟨vs, vs', values, values', related⟩ := mapM_lookup? fun part member =>
      lookup?_renamed names member each order (entries_length_le_one distinct (once part member))
    exact reads values values' related
  | @array items items' each =>
    have same := each.length_eq
    by_cases fits : items.length ≤ parts.length
    · have padded := (each.padded (by rwa [List.length_map])).2
      rw [List.map_map, List.length_map] at padded
      refine reads (if_pos (by rwa [List.length_map])) (if_pos (by rwa [List.length_map, same])) ?_
      rw [List.length_map]
      exact padded
    · rw [fieldValues?, fieldValues?, List.length_map, if_neg fits, if_neg (same ▸ fits)]

theorem list?_eq {α : Type} {read : Json → Option α} {alike : Json → Json → Prop}
    (reads : ∀ j j', alike j j' → read j = read j') {v v' : Option Json}
    (h : Option.Rel (Items alike) v v') : Lenient.list? read v = Lenient.list? read v' := by
  cases h with
  | none => rfl
  | some values =>
    cases values with
    | same => rfl
    | array each =>
      change List.mapM read _ = List.mapM read _
      induction each with
      | nil => rfl
      | cons item each ih => rw [List.mapM_cons, List.mapM_cons, reads _ _ item, ih]

theorem record?_eq {α : Type} {read : Json → Option α} {parts : Parts}
    (reads : ∀ j j', Record parts j j' → read j = read j') {v v' : Option Json}
    (h : Option.Rel (Record parts) v v') : Lenient.record? read v = Lenient.record? read v' := by
  cases h with
  | none => rfl
  | some values =>
    cases values with
    | same => rfl
    | object each order distinct once =>
      exact congrArg (Option.map some) (reads _ _ (.object each order distinct once))
    | array each => exact congrArg (Option.map some) (reads _ _ (.array each))

end Respelled

open Respelled (Parts Record Items Pointwise)

theorem eq_of_rel_eq {α : Type} {v v' : Option α} (h : Option.Rel Eq v v') : v = v' := by
  cases h with
  | none => rfl
  | some same => rw [same]

namespace Evaluation

def respellings : Parts := fieldNames.zip [Eq, Eq, Eq, Eq, Eq, Eq]

def Respelled : Json → Json → Prop := Record respellings

theorem ofJson?_respelled (j j' : Json) (h : Respelled j j') : ofJson? j = ofJson? j' := by
  refine Record.bind_eq respellings (by decide) (fun vs vs' full full' related => ?_) h
  match vs, vs', full, full', related with
  | [_, _, _, _, _, _], [_, _, _, _, _, _], _, _, ⟨routed, policies, reason, set, decision, type, _⟩ =>
    rw [eq_of_rel_eq routed, eq_of_rel_eq policies, eq_of_rel_eq reason, eq_of_rel_eq set,
      eq_of_rel_eq decision, eq_of_rel_eq type]

end Evaluation

namespace Signal

def respellings : Parts := fieldNames.zip [Eq, Eq, Eq, Eq, Eq]

def Respelled : Json → Json → Prop := Record respellings

theorem ofJson?_respelled (j j' : Json) (h : Respelled j j') : ofJson? j = ofJson? j' := by
  refine Record.bind_eq respellings (by decide) (fun vs vs' full full' related => ?_) h
  match vs, vs', full, full', related with
  | [_, _, _, _, _], [_, _, _, _, _], _, _, ⟨name, command, result, duration, code, _⟩ =>
    rw [eq_of_rel_eq name, eq_of_rel_eq command, eq_of_rel_eq result, eq_of_rel_eq duration,
      eq_of_rel_eq code]

end Signal

namespace SignalBlock

def respellings : Parts := fieldNames.zip [Eq, Eq, Eq, Eq, Items Signal.Respelled]

def Respelled : Json → Json → Prop := Record respellings

theorem ofJson?_respelled (j j' : Json) (h : Respelled j j') : ofJson? j = ofJson? j' := by
  refine Record.bind_eq respellings (by decide) (fun vs vs' full full' related => ?_) h
  match vs, vs', full, full', related with
  | [_, _, _, _, _], [_, _, _, _, _], _, _, ⟨id, start, finish, duration, signals, _⟩ =>
    rw [eq_of_rel_eq id, eq_of_rel_eq start, eq_of_rel_eq finish, eq_of_rel_eq duration]
    simp only [ofValues?, Respelled.list?_eq Signal.ofJson?_respelled signals]

end SignalBlock

namespace Phase

def respellings : Parts :=
  fieldNames.zip [Eq, Eq, Eq, Eq, Eq, SignalBlock.Respelled, Evaluation.Respelled]

def Respelled : Json → Json → Prop := Record respellings

theorem ofJson?_respelled (j j' : Json) (h : Respelled j j') : ofJson? j = ofJson? j' := by
  refine Record.bind_eq respellings (by decide) (fun vs vs' full full' related => ?_) h
  match vs, vs', full, full', related with
  | [_, _, _, _, _, _, _], [_, _, _, _, _, _, _], _, _,
      ⟨id, name, start, finish, duration, signals, evaluation, _⟩ =>
    rw [eq_of_rel_eq id, eq_of_rel_eq name, eq_of_rel_eq start, eq_of_rel_eq finish,
      eq_of_rel_eq duration]
    simp only [ofValues?, Respelled.record?_eq SignalBlock.ofJson?_respelled signals,
      Respelled.record?_eq Evaluation.ofJson?_respelled evaluation]

end Phase

namespace Enrichment

def respellings : Parts := fieldNames.zip [Eq, Eq, Eq, Eq, Eq, Eq, Eq]

def Respelled : Json → Json → Prop := Record respellings

theorem ofJson?_respelled (j j' : Json) (h : Respelled j j') : ofJson? j = ofJson? j' := by
  refine Record.bind_eq respellings (by decide) (fun vs vs' full full' related => ?_) h
  match vs, vs', full, full', related with
  | [_, _, _, _, _, _, _], [_, _, _, _, _, _, _], _, _,
      ⟨id, start, finish, operations, event, micros, millis, _⟩ =>
    rw [eq_of_rel_eq id, eq_of_rel_eq start, eq_of_rel_eq finish, eq_of_rel_eq operations,
      eq_of_rel_eq event, eq_of_rel_eq micros, eq_of_rel_eq millis]

end Enrichment

namespace Document

def respellings : Parts :=
  fieldNames.zip
    [Eq, Eq, Eq, Eq, Eq, Eq, Enrichment.Respelled, Items Phase.Respelled, Eq, Eq, Eq]

def Respelled : Json → Json → Prop := Record respellings

/-- Whichever spelling each field of each record has, the same document is read, or none. -/
theorem ofJson?_eq_of_respelled {j j' : Json} (h : Respelled j j') : ofJson? j = ofJson? j' := by
  refine Record.bind_eq respellings (by decide) (fun vs vs' full full' related => ?_) h
  match vs, vs', full, full', related with
  | [_, _, _, _, _, _, _, _, _, _, _], [_, _, _, _, _, _, _, _, _, _, _], _, _,
      ⟨id, trace, harness, start, finish, event, enrich, phases, response, errors, total, _⟩ =>
    rw [eq_of_rel_eq id, eq_of_rel_eq trace, eq_of_rel_eq harness, eq_of_rel_eq start,
      eq_of_rel_eq finish, eq_of_rel_eq event, eq_of_rel_eq response, eq_of_rel_eq errors,
      eq_of_rel_eq total]
    simp only [ofValues?, Respelled.record?_eq Enrichment.ofJson?_respelled enrich,
      Respelled.list?_eq Phase.ofJson?_respelled phases]

-- Renamed in a signal and in the document, in either direction, and in another order.
theorem ofJson?_eq_of_respelled_mixed :
    let phases (signal : Json) : Json :=
      .array [.object [("signals", .object [("signals", .array [signal])]), ("name", .string "global")]]
    let signal : Json := .object [("durationMs", .int 4), ("exit_code", .int 1), ("note", .null)]
    let signal' : Json := .object [("duration_ms", .int 4), ("exit_code", .int 1), ("note", .null)]
    let j : Json := .object
      [("spanId", .string "r"), ("phases", phases signal), ("total_duration_ms", .int 9)]
    let j' : Json := .object
      [("phases", phases signal'), ("span_id", .string "r"), ("totalDurationMs", .int 9)]
    Respelled j j' ∧ (ofJson? j).isSome ∧ ofJson? j = ofJson? j' := by
  intro phases signal signal' j j'
  have one : Signal.Respelled signal signal' :=
    .object (.cons (Respelled.Field.listed 3 rfl (by decide) (by decide) rfl)
      (.cons (Respelled.Field.listed 4 rfl (by decide) (by decide) rfl)
        (.cons (.unknown (by decide)) .nil)))
      (.refl _) (by decide) (by decide)
  have block : SignalBlock.Respelled (.object [("signals", .array [signal])])
      (.object [("signals", .array [signal'])]) :=
    .object (.cons (Respelled.Field.listed 4 rfl (by decide) (by decide) (.array (.cons one .nil))) .nil)
      (.refl _) (by decide) (by decide)
  have phase : Phase.Respelled
      (.object [("signals", .object [("signals", .array [signal])]), ("name", .string "global")])
      (.object [("signals", .object [("signals", .array [signal'])]), ("name", .string "global")]) :=
    .object (.cons (Respelled.Field.listed 5 rfl (by decide) (by decide) block)
      (.cons (Respelled.Field.listed 1 rfl (by decide) (by decide) rfl) .nil)) (.refl _) (by decide) (by decide)
  have whole : Respelled j j' :=
    .object (.cons (Respelled.Field.listed 0 rfl (by decide) (by decide) rfl)
      (.cons (Respelled.Field.listed 7 rfl (by decide) (by decide) (.array (.cons phase .nil)))
        (.cons (Respelled.Field.listed 10 rfl (by decide) (by decide) rfl) .nil)))
      (.swap _ _ _) (by decide) (by decide)
  exact ⟨whole, by decide +kernel, ofJson?_eq_of_respelled whole⟩

end Document

end Waterfall
