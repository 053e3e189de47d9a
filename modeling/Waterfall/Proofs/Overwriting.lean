import Mathlib.Data.List.Basic
import Waterfall.Proofs.Spellings

set_option autoImplicit false

namespace Waterfall

inductive Step where
  | field (name : String)
  | item (n : Nat)

/-- The new values of some fields, by the steps that lead to them. -/
abbrev Overwriting := List Step → Option Json

namespace Overwriting

def under (w : Overwriting) (step : Step) : Overwriting :=
  fun path => w (step :: path)

abbrev Change := Overwriting → Json → Json

def untouched : Change := fun _ v => v

def timing : Change := fun w v => (w []).getD v

abbrev Parts := List (FieldName × Change)

def part (w : Overwriting) (p : FieldName × Change) (v : Json) : Json :=
  p.2 (w.under (.field p.1.camel)) v

def positions (w : Overwriting) : Parts → List Json → List Json
  | p :: parts, v :: items => w.part p v :: positions w parts items
  | _, items => items

def named (w : Overwriting) (parts : Parts) (key : String) (v : Json) : Json :=
  match parts.find? fun p => p.1.Spells key with
  | some p => w.part p v
  | none => v

def record (parts : Parts) : Change
  | w, .object fields => .object (fields.map fun (key, v) => (key, w.named parts key v))
  | w, .array items => .array (w.positions parts items)
  | _, j => j

def items (change : Change) : Change
  | w, .array vs => .array (vs.mapIdx fun n v => change (w.under (.item n)) v)
  | _, j => j

/-- A field that was overwritten counts as missing. -/
def except {α : Type} (w : Overwriting) (name : FieldName) (missing a : α) : α :=
  if (w [.field name.camel]).isSome then missing else a

@[simp] theorem except_timing {α : Type} (w : Overwriting) (name : FieldName) (missing : α)
    (read : Option Json → α) (v : Option Json) :
    w.except name missing (read (v.map (w.part (name, timing)))) =
      w.except name missing (read v) := by
  unfold except
  cases new : w [.field name.camel] with
  | none =>
    have same : w.part (name, timing) = id := by
      funext v
      exact congrArg (Option.getD · v) new
    rw [same, Option.map_id_fun, id_eq]
  | some => rfl

@[simp] theorem map_untouched (w : Overwriting) (name : FieldName) (v : Option Json) :
    v.map (w.part (name, untouched)) = v := by
  cases v <;> rfl

variable {parts : Parts} {w : Overwriting}

theorem lookup_map {f : String → Json → Json} (key : String) (fields : List (String × Json)) :
    Json.lookup key (fields.map fun (k, v) => (k, f k v)) = (Json.lookup key fields).map (f key) := by
  induction fields with
  | nil => rfl
  | cons field rest ih =>
    simp only [List.map_cons, Json.lookup, ih]
    split
    next same => rw [same, Option.map_some]
    next => rfl

theorem named_of_spells (names : FieldName.WellSpelled (parts.map Prod.fst))
    {p : FieldName × Change} (member : p ∈ parts) {key : String} (spells : p.1.Spells key) :
    w.named parts key = w.part p := by
  funext v
  unfold named
  cases found : parts.find? fun p => p.1.Spells key with
  | none => exact absurd (decide_eq_true spells) (List.find?_eq_none.1 found p member)
  | some q =>
    have spelled : q.1.Spells key := by simpa using List.find?_some found
    rw [FieldName.eq_of_spells names (List.mem_of_find?_eq_some found) member spelled spells]

theorem lookup?_named (names : FieldName.WellSpelled (parts.map Prod.fst)) {p : FieldName × Change}
    (member : p ∈ parts) (fields : List (String × Json)) :
    p.1.lookup? (fields.map fun (key, v) => (key, w.named parts key v)) =
      (p.1.lookup? fields).map (Option.map (w.part p)) := by
  have regular := names.1 p.1 (List.mem_map_of_mem member)
  unfold FieldName.lookup? Json.field?
  rw [lookup_map, lookup_map, named_of_spells names member (.inl rfl),
    named_of_spells names member (.inr regular.symm)]
  cases Json.lookup p.1.camel fields with
  | none => rfl
  | some v =>
    simp only [Option.map_some, Option.isSome_map]
    split <;> rfl

def values (w : Overwriting) (parts : Parts) (vs : List (Option Json)) : List (Option Json) :=
  List.zipWith (fun p v => v.map (w.part p)) parts vs

theorem mapM_lookup? {fields fields' : List (String × Json)}
    (each : ∀ p ∈ parts, p.1.lookup? fields' = (p.1.lookup? fields).map (Option.map (w.part p))) :
    fieldValues? (parts.map Prod.fst) (.object fields') =
      (fieldValues? (parts.map Prod.fst) (.object fields)).map (w.values parts) := by
  simp only [fieldValues?]
  induction parts with
  | nil => rfl
  | cons p parts ih =>
    rw [List.map_cons, List.mapM_cons, List.mapM_cons, each p List.mem_cons_self,
      ih fun p member => each p (List.mem_cons_of_mem _ member)]
    cases p.1.lookup? fields with
    | none => rfl
    | some v =>
      cases List.mapM (fun name : FieldName => name.lookup? fields) (parts.map Prod.fst) <;> rfl

theorem length_positions (parts : Parts) (vs : List Json) :
    (w.positions parts vs).length = vs.length := by
  fun_induction positions w parts vs with
  | case1 p parts v vs ih => exact congrArg (· + 1) ih
  | case2 => rfl

theorem padded_positions {vs : List Json} (fits : vs.length ≤ parts.length) :
    (w.positions parts vs).map some ++ List.replicate (parts.length - vs.length) none =
      w.values parts (vs.map some ++ List.replicate (parts.length - vs.length) none) := by
  induction parts generalizing vs with
  | nil =>
    rw [List.eq_nil_of_length_eq_zero (Nat.le_zero.1 fits)]
    rfl
  | cons p parts ih =>
    cases vs with
    | nil =>
      have short : ([] : List Json).length ≤ parts.length := Nat.zero_le _
      have rest := ih short
      rw [positions, List.map_nil, List.nil_append] at rest ⊢
      · exact congrArg (none :: ·) rest
      · nofun
      · nofun
    | cons v vs =>
      have rest := ih (Nat.le_of_succ_le_succ fits)
      rw [positions, List.length_cons, List.length_cons, Nat.add_sub_add_right]
      exact congrArg (some (w.part p v) :: ·) rest

theorem fieldValues?_record (names : FieldName.WellSpelled (parts.map Prod.fst)) (j : Json) :
    fieldValues? (parts.map Prod.fst) (record parts w j) =
      (fieldValues? (parts.map Prod.fst) j).map (w.values parts) := by
  cases j with
  | object fields => exact mapM_lookup? fun p member => lookup?_named names member fields
  | array vs =>
    simp only [record, fieldValues?, length_positions, List.length_map]
    split
    next fits => exact congrArg some (padded_positions fits)
    next => rfl
  | null | bool | int | float | single | string => rfl

theorem bind_record {α β : Type} (parts : Parts) {read : List (Option Json) → Option α} {kept : α → β}
    (names : FieldName.WellSpelled (parts.map Prod.fst))
    (respects : ∀ vs, vs.length = parts.length →
      (read (w.values parts vs)).map kept = (read vs).map kept) (j : Json) :
    ((fieldValues? (parts.map Prod.fst) (record parts w j)).bind read).map kept =
      ((fieldValues? (parts.map Prod.fst) j).bind read).map kept := by
  rw [fieldValues?_record names]
  cases found : fieldValues? (parts.map Prod.fst) j with
  | none => rfl
  | some vs => exact respects vs ((length_fieldValues? found).trans (List.length_map _))

def Keeps {α : Type} (change : Change) (read : Json → Option α) (kept : Overwriting → α → α) : Prop :=
  ∀ w j, (read (change w j)).map (kept w) = (read j).map (kept w)

variable {α : Type} {change : Change} {read : Json → Option α} {kept : Overwriting → α → α}

theorem mapM_mapIdx {f : Nat → Json → Json} {g : Nat → α → α}
    (each : ∀ n j, (read (f n j)).map (g n) = (read j).map (g n)) (vs : List Json) :
    ((vs.mapIdx f).mapM read).map (List.mapIdx g) = (vs.mapM read).map (List.mapIdx g) := by
  induction vs generalizing f g with
  | nil => rfl
  | cons v vs ih =>
    have apart (first : Option α) (rest : Option (List α)) :
        (first.bind fun a => rest.bind fun as => some (a :: as)).map (List.mapIdx g) =
          (first.map (g 0)).bind fun b => (rest.map (List.mapIdx fun n => g (n + 1))).map (b :: ·) := by
      cases first <;> cases rest <;> simp [List.mapIdx_cons]
    rw [List.mapIdx_cons, List.mapM_cons, List.mapM_cons]
    refine (apart _ _).trans (Eq.trans ?_ (apart _ _).symm)
    rw [each 0 v, ih fun n j => each (n + 1) j]

def keptItems (kept : Overwriting → α → α) (w : Overwriting) (as : List α) : List α :=
  as.mapIdx fun n a => kept (w.under (.item n)) a

theorem Keeps.list? (keeps : Keeps change read kept) (w : Overwriting) (v : Option Json) :
    (Lenient.list? read (v.map (items change w))).map (keptItems kept w) =
      (Lenient.list? read v).map (keptItems kept w) := by
  cases v with
  | none => rfl
  | some j =>
    cases j with
    | array vs => exact mapM_mapIdx (fun n j => keeps (w.under (.item n)) j) vs
    | null | bool | int | float | single | string | object => rfl

theorem Keeps.record? {parts : Parts} (keeps : Keeps (record parts) read kept) (w : Overwriting)
    (v : Option Json) :
    (Lenient.record? read (v.map (record parts w))).map (Option.map (kept w)) =
      (Lenient.record? read v).map (Option.map (kept w)) := by
  cases v with
  | none => rfl
  | some j =>
    have inside (o : Option α) : (o.map some).map (Option.map (kept w)) = (o.map (kept w)).map some := by
      cases o <;> rfl
    cases j with
    | null => rfl
    | bool | int | float | single | string | object | array =>
      exact (inside _).trans ((congrArg (Option.map some) (keeps w _)).trans (inside _).symm)

theorem bind_eq_of_map_eq {β γ δ : Type} {x y : Option β} {k : β → γ} {f : β → Option δ}
    (same : x.map k = y.map k) (only : ∀ a b, k a = k b → f a = f b) : x.bind f = y.bind f := by
  cases x <;> cases y
  · rfl
  · cases same
  · cases same
  · exact only _ _ (Option.some.inj same)

-- What is read on after the records of a field may only depend on what is kept of them.
theorem Keeps.bind_list? {β : Type} (keeps : Keeps change read kept) {name : String} {v : Option Json}
    {f : List α → Option β} (only : ∀ as bs, keptItems kept (w.under (.field name)) as =
      keptItems kept (w.under (.field name)) bs → f as = f bs) :
    (Lenient.list? read (v.map (w.part (.word name, items change)))).bind f =
      (Lenient.list? read v).bind f :=
  bind_eq_of_map_eq (keeps.list? _ v) only

theorem Keeps.bind_record? {β : Type} {parts : Parts} (keeps : Keeps (record parts) read kept)
    {name : String} {v : Option Json} {f : Option α → Option β}
    (only : ∀ a b, a.map (kept (w.under (.field name))) = b.map (kept (w.under (.field name))) →
      f a = f b) :
    (Lenient.record? read (v.map (w.part (.word name, record parts)))).bind f =
      (Lenient.record? read v).bind f :=
  bind_eq_of_map_eq (keeps.record? _ v) only

end Overwriting

open Overwriting (Change Parts Keeps untouched timing record items keptItems)

namespace Signal

def changes : Parts := fieldNames.zip [untouched, untouched, untouched, timing, timing]

def overwrite : Change := record changes

def except (w : Overwriting) (s : Signal) : Signal :=
  { s with
    durationMs := w.except .durationMs none s.durationMs
    exitCode := w.except ⟨"exitCode", "exit_code"⟩ none s.exitCode }

theorem keeps : Keeps overwrite ofJson? except := by
  refine fun w j => Overwriting.bind_record changes (by decide) (fun vs full => ?_) j
  match vs, full with
  | [_, _, _, _, _], _ =>
    simp [Overwriting.values, changes, fieldNames, ofValues?, Option.map_bind, Function.comp_def, except]

end Signal

namespace SignalBlock

def changes : Parts := fieldNames.zip [untouched, timing, timing, timing, items Signal.overwrite]

def overwrite : Change := record changes

def except (w : Overwriting) (b : SignalBlock) : SignalBlock :=
  { b with
    start := w.except .start 0 b.start
    finish := w.except .finish 0 b.finish
    durationMs := w.except .durationMs none b.durationMs
    signals := keptItems Signal.except (w.under (.field "signals")) b.signals }

theorem keeps : Keeps overwrite ofJson? except := by
  refine fun w j => Overwriting.bind_record changes (by decide) (fun vs full => ?_) j
  match vs, full with
  | [_, _, _, _, _], _ =>
    simp only [ofValues?, Overwriting.values, changes, fieldNames, List.zip_cons_cons, List.zip_nil_right,
      List.zipWith_cons_cons, List.zipWith_nil_right, Overwriting.map_untouched, Overwriting.except_timing,
      Option.bind_eq_bind, Option.map_bind, Function.comp_def, Option.map_some, except]
    refine congrArg _ (funext fun _ => ?_)
    exact Signal.keeps.bind_list? fun _ _ same => by rw [same]

end SignalBlock

namespace Phase

def changes : Parts :=
  fieldNames.zip [untouched, untouched, timing, timing, timing, SignalBlock.overwrite, untouched]

def overwrite : Change := record changes

def except (w : Overwriting) (p : Phase) : Phase :=
  { p with
    start := w.except .start 0 p.start
    finish := w.except .finish 0 p.finish
    durationMs := w.except .durationMs none p.durationMs
    signals := p.signals.map (SignalBlock.except (w.under (.field "signals"))) }

theorem keeps : Keeps overwrite ofJson? except := by
  refine fun w j => Overwriting.bind_record changes (by decide) (fun vs full => ?_) j
  match vs, full with
  | [_, _, _, _, _, _, _], _ =>
    simp only [ofValues?, Overwriting.values, changes, fieldNames, List.zip_cons_cons, List.zip_nil_right,
      List.zipWith_cons_cons, List.zipWith_nil_right, Overwriting.map_untouched, Overwriting.except_timing,
      Option.bind_eq_bind, Option.map_bind, Function.comp_def, Option.map_some, except]
    refine congrArg _ (funext fun _ => congrArg _ (funext fun _ => ?_))
    exact SignalBlock.keeps.bind_record? fun _ _ same => by rw [same]

end Phase

namespace Enrichment

def changes : Parts :=
  fieldNames.zip [untouched, timing, timing, untouched, untouched, timing, timing]

def overwrite : Change := record changes

def except (w : Overwriting) (e : Enrichment) : Enrichment :=
  { e with
    start := w.except .start 0 e.start
    finish := w.except .finish 0 e.finish
    durationUs := w.except ⟨"durationUs", "duration_us"⟩ none e.durationUs
    durationMs := w.except .durationMs none e.durationMs }

theorem keeps : Keeps overwrite ofJson? except := by
  refine fun w j => Overwriting.bind_record changes (by decide) (fun vs full => ?_) j
  match vs, full with
  | [_, _, _, _, _, _, _], _ =>
    simp [Overwriting.values, changes, fieldNames, ofValues?, Option.map_bind, Function.comp_def, except]

end Enrichment

namespace Document

def changes : Parts :=
  fieldNames.zip
    [untouched, untouched, untouched, timing, timing, untouched, Enrichment.overwrite,
      items Phase.overwrite, untouched, untouched, timing]

def overwrite : Change := record changes

def except (w : Overwriting) (d : Document) : Document :=
  { d with
    start := w.except .start 0 d.start
    finish := w.except .finish 0 d.finish
    enrich := d.enrich.map (Enrichment.except (w.under (.field "enrich")))
    phases := keptItems Phase.except (w.under (.field "phases")) d.phases
    totalDurationMs := w.except ⟨"totalDurationMs", "total_duration_ms"⟩ none d.totalDurationMs }

/-- Whatever is put into times, durations and exit codes, an accepted document stays accepted, and the same in every
other field. -/
theorem ofJson?_overwrite (w : Overwriting) (j : Json) :
    (ofJson? (overwrite w j)).map (except w) = (ofJson? j).map (except w) := by
  refine Overwriting.bind_record changes (by decide) (fun vs full => ?_) j
  match vs, full with
  | [_, _, _, _, _, _, _, _, _, _, _], _ =>
    simp only [ofValues?, Overwriting.values, changes, fieldNames, List.zip_cons_cons, List.zip_nil_right,
      List.zipWith_cons_cons, List.zipWith_nil_right, Overwriting.map_untouched, Overwriting.except_timing,
      Option.bind_eq_bind, Option.map_bind, Function.comp_def, Option.map_some, except]
    refine congrArg _ (funext fun _ => congrArg _ (funext fun _ => ?_))
    refine (Enrichment.keeps.bind_record? fun _ _ same => by rw [same]).trans ?_
    refine congrArg _ (funext fun _ => ?_)
    exact Phase.keeps.bind_list? fun _ _ same => by rw [same]

end Document

end Waterfall
