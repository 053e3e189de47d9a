import Mathlib.Data.String.Basic
import Waterfall.Preferences
import Waterfall.Proofs.JsonText
import Waterfall.Proofs.Replacing

set_option autoImplicit false

namespace Waterfall

namespace Json

variable {α : Type}

def Sorted (fields : List (String × α)) : Prop :=
  fields.Pairwise (·.1 < ·.1)

theorem mem_insertField {key : String} {value : α} {fields : List (String × α)} {field : String × α}
    (h : field ∈ insertField key value fields) : field = (key, value) ∨ field ∈ fields := by
  induction fields with
  | nil => exact .inl (List.mem_singleton.1 h)
  | cons first rest ih =>
    obtain ⟨k, v⟩ := first
    rw [insertField] at h
    split at h
    next => exact (List.mem_cons.1 h).imp_right (List.mem_cons_of_mem _)
    next =>
      split at h
      next => exact List.mem_cons.1 h
      next =>
        obtain rfl | later := List.mem_cons.1 h
        · exact .inr List.mem_cons_self
        · exact (ih later).imp_right (List.mem_cons_of_mem _)

theorem Sorted.insertField {fields : List (String × α)} (sorted : Sorted fields) (key : String) (value : α) :
    Sorted (Json.insertField key value fields) := by
  induction fields with
  | nil => exact List.pairwise_singleton _ _
  | cons first rest ih =>
    obtain ⟨k, v⟩ := first
    obtain ⟨least, rest_sorted⟩ := List.pairwise_cons.1 sorted
    rw [Json.insertField]
    split
    next same =>
      subst same
      exact List.pairwise_cons.2 ⟨least, rest_sorted⟩
    next other =>
      split
      next before =>
        refine List.pairwise_cons.2 ⟨List.forall_mem_cons.2 ⟨before, fun field member => ?_⟩, sorted⟩
        exact lt_trans before (least field member)
      next notBefore =>
        have behind : k < key := lt_of_le_of_ne (not_lt.1 notBefore) (Ne.symm other)
        refine List.pairwise_cons.2 ⟨fun field member => ?_, ih rest_sorted⟩
        obtain rfl | old := mem_insertField member
        · exact behind
        · exact least field old

theorem exists_lookup {fields : List (String × α)} {field : String × α} (h : field ∈ fields) :
    ∃ value, lookup field.1 fields = some value := by
  induction fields with
  | nil => cases h
  | cons first rest ih =>
    obtain ⟨k, v⟩ := first
    rw [lookup]
    split
    next => exact ⟨v, rfl⟩
    next other =>
      obtain rfl | later := List.mem_cons.1 h
      · exact absurd rfl other
      · exact ih later

theorem insertField_last {key : String} {value : α} {fields : List (String × α)}
    (last : ∀ field ∈ fields, field.1 < key) :
    insertField key value fields = fields ++ [(key, value)] := by
  induction fields with
  | nil => rfl
  | cons first rest ih =>
    obtain ⟨k, v⟩ := first
    obtain ⟨before, others⟩ := List.forall_mem_cons.1 last
    rw [insertField, if_neg before.ne', if_neg before.not_gt, ih others, List.cons_append]

end Json

namespace Split

def ReadsBack (x : Float32) : Prop :=
  x.isFinite → (Json.read (Json.singleForm x)).toOption.bind ratioOfJson? = some x

def Finite (s : Split) : Prop :=
  s.horizontal.isFinite ∧ s.vertical.isFinite

instance (s : Split) : Decidable s.Finite :=
  inferInstanceAs (Decidable (_ ∧ _))

def Legible (s : Split) : Prop :=
  ReadsBack s.horizontal ∧ ReadsBack s.vertical

instance (x : Float32) : Decidable (ReadsBack x) :=
  inferInstanceAs (Decidable (_ → _))

instance (s : Split) : Decidable s.Legible :=
  inferInstanceAs (Decidable (_ ∧ _))

theorem ReadsBack.isSome {x : Float32} (h : ReadsBack x) (finite : x.isFinite) :
    (Json.read (Json.singleForm x)).toOption.isSome := by
  obtain ⟨v, read, -⟩ := Option.bind_eq_some_iff.1 (h finite)
  rw [read]
  rfl

theorem ratioOfJson?_reread {x : Float32} (h : ReadsBack x) :
    ratioOfJson? (Json.reread (.single x)) = if x.isFinite then some x else none := by
  by_cases finite : x.isFinite
  · obtain ⟨v, read, ratio⟩ := Option.bind_eq_some_iff.1 (h finite)
    rw [Json.reread, read, if_pos finite]
    exact ratio
  · have null : Json.singleForm x = "null" := if_neg finite
    rw [Json.reread, null, if_neg finite]
    rfl

theorem ofJson?_reread {s : Split} (h : s.Legible) :
    ofJson? (Json.eachField Json.reread s.toJson) = if s.Finite then some s else none := by
  have fields : ofJson? (Json.eachField Json.reread s.toJson) =
      (ratioOfJson? (Json.reread (.single s.horizontal))).bind fun horizontal =>
        (ratioOfJson? (Json.reread (.single s.vertical))).bind fun vertical =>
          some ⟨horizontal, vertical⟩ := rfl
  rw [fields, ratioOfJson?_reread h.1, ratioOfJson?_reread h.2]
  by_cases horizontal : s.horizontal.isFinite
  · by_cases vertical : s.vertical.isFinite
    · simp [Finite, horizontal, vertical]
    · simp [Finite, horizontal, vertical]
  · simp [Finite, horizontal]

theorem holds_toJson {s : Split} (h : s.Legible) (depth : Nat) :
    Json.Holds 1 (Json.prettyAt depth s.toJson).toList (Json.eachField Json.reread s.toJson) := by
  refine Json.holds_object fun field member => ?_
  simp only [List.mem_cons, List.not_mem_nil, or_false] at member
  obtain rfl | rfl := member
  · exact Json.holds_single h.1.isSome
  · exact Json.holds_single h.2.isSome

end Split

namespace Splits

def gather (done : Splits) (fields : List (String × Json)) : Option Splits :=
  fields.foldlM (fun splits (id, j) => (Split.ofJson? j).map fun s => Json.insertField id s splits) done

theorem gather_cons (done : Splits) (id : String) (j : Json) (fields : List (String × Json)) :
    gather done ((id, j) :: fields) =
      (Split.ofJson? j).bind fun s => gather (Json.insertField id s done) fields := by
  change ((Split.ofJson? j).map fun s => Json.insertField id s done).bind (gather · fields) = _
  rw [Option.bind_map]
  rfl

theorem sorted_gather {done splits : Splits} {fields : List (String × Json)} (sorted : Json.Sorted done)
    (h : gather done fields = some splits) : Json.Sorted splits := by
  induction fields generalizing done with
  | nil => exact Option.some.inj h ▸ sorted
  | cons field rest ih =>
    obtain ⟨id, j⟩ := field
    rw [gather_cons] at h
    obtain ⟨s, -, h⟩ := Option.bind_eq_some_iff.1 h
    exact ih (sorted.insertField id s) h

theorem sorted_ofText? {text : String} {splits : Splits} (h : ofText? text = some splits) :
    Json.Sorted splits := by
  have value {j : Json} (h : ofValue? j = some splits) : Json.Sorted splits := by
    cases j with
    | object fields => exact sorted_gather .nil h
    | _ => cases h
  obtain ⟨j, -, read⟩ := Option.bind_eq_some_iff.1 h
  unfold ofJson? at read
  split at read
  next =>
    split at read
    next => exact Option.some.inj read ▸ .nil
    next => exact value read
    next => cases read
  next => exact Option.some.inj read ▸ .nil
  next => exact value read
  next => cases read

-- Splits that are in order are put back one behind the other.
theorem gather_map (write : Split → Json) {done splits : Splits} (sorted : Json.Sorted (done ++ splits))
    (reads : ∀ entry ∈ splits,
      Split.ofJson? (write entry.2) = if entry.2.Finite then some entry.2 else none) :
    gather done (splits.map fun entry => (entry.1, write entry.2)) =
      if ∀ entry ∈ splits, entry.2.Finite then some (done ++ splits) else none := by
  induction splits generalizing done with
  | nil => simp [gather]
  | cons entry rest ih =>
    obtain ⟨id, s⟩ := entry
    obtain ⟨first, others⟩ := List.forall_mem_cons.1 reads
    have last : ∀ field ∈ done, field.1 < id := fun field member =>
      (List.pairwise_append.1 sorted).2.2 field member _ List.mem_cons_self
    rw [List.append_cons] at sorted
    rw [List.map_cons, gather_cons, first]
    by_cases finite : s.Finite
    · have all : (∀ entry ∈ (id, s) :: rest, entry.2.Finite) ↔ ∀ entry ∈ rest, entry.2.Finite :=
        List.forall_mem_cons.trans (and_iff_right finite)
      rw [if_pos finite, Option.bind_some, Json.insertField_last last, ih sorted others]
      simp only [all, List.append_assoc, List.singleton_append]
    · have some : ¬ ∀ entry ∈ (id, s) :: rest, entry.2.Finite :=
        fun all => finite (all (id, s) List.mem_cons_self)
      rw [if_neg finite, if_neg some]
      rfl

theorem ofText?_pretty {splits : Splits} (sorted : Json.Sorted splits)
    (legible : ∀ entry ∈ splits, entry.2.Legible) :
    ofText? splits.toJson.pretty = if ∀ entry ∈ splits, entry.2.Finite then some splits else none := by
  let back := Json.eachField (Json.eachField Json.reread)
  have inner : Json.Holds 2
      (Json.prettyAt 1 (.object (splits.map fun entry => (entry.1, entry.2.toJson)))).toList
      (back (.object (splits.map fun entry => (entry.1, entry.2.toJson)))) := by
    refine Json.holds_object fun field member => ?_
    obtain ⟨entry, here, rfl⟩ := List.mem_map.1 member
    exact Split.holds_toJson (legible entry here) 2
  have text : (Json.read splits.toJson.pretty).toOption = some (Json.eachField back splits.toJson) :=
    Json.read_object (List.forall_mem_singleton.2 inner) (by decide)
  have fields : ofJson? (Json.eachField back splits.toJson) =
      gather [] (splits.map fun entry => (entry.1, Json.eachField Json.reread entry.2.toJson)) := by
    change gather [] ((splits.map fun entry => (entry.1, entry.2.toJson)).map fun field =>
      (field.1, Json.eachField Json.reread field.2)) = _
    rw [List.map_map]
    rfl
  rw [ofText?, text, Option.bind_some, fields]
  exact gather_map (fun s => Json.eachField Json.reread s.toJson) (sorted : Json.Sorted ([] ++ splits))
    fun entry member => Split.ofJson?_reread (legible entry member)

end Splits

namespace Preferences

/-- Preferences that were read from whatever their file held, and then changed and saved. -/
inductive Reached : Preferences → Prop
  | loaded (path : String) (content : Except IoFault String) : Reached (ofContent path content)
  | set {p : Preferences} (layout : String) (s : Split) : Reached p → Reached (p.setSplit layout s)
  | saved {p p' : Preferences} {files files' : Files} :
      Reached p → (p.save : StateM Files _) files = (.ok p', files') → Reached p'

variable {p p' : Preferences} {files files' : Files}

theorem bind_changing {β : Type} (f : Files → Except IoFault Files)
    (next : Except IoFault Unit → StateM Files β) (files : Files) :
    (Files.changing f >>= next) files =
      match f files with
      | .ok changed => next (.ok ()) changed
      | .error fault => next (.error fault) files := by
  change next (Files.changing f files).1 (Files.changing f files).2 = _
  rw [Files.changing]
  cases f files <;> rfl

-- What goes on to fail after a change that fails can only succeed after one that does not.
theorem exists_of_changing {f : Files → Except IoFault Files}
    {next : Except IoFault Unit → StateM Files (Except Error Preferences)}
    (refuses : ∀ fault files, ∃ e, (next (.error fault) files).1 = .error e)
    (saved : (Files.changing f >>= next) files = (.ok p', files')) :
    ∃ changed, f files = .ok changed ∧ next (.ok ()) changed = (.ok p', files') := by
  rw [bind_changing] at saved
  cases made : f files with
  | error fault =>
    rw [made] at saved
    obtain ⟨e, failed⟩ := refuses fault files
    exact absurd (failed.symm.trans (congrArg Prod.fst saved)) nofun
  | ok changed =>
    rw [made] at saved
    exact ⟨changed, rfl, saved⟩

theorem write_eq_ok (saved : (save.write p : StateM Files _) files = (.ok p', files')) :
    p' = { p with changed := false } ∧ Files.read files' p.path = .ok p.text := by
  obtain ⟨written, wrote, saved⟩ := exists_of_changing (fun _ _ => ⟨_, rfl⟩) saved
  obtain ⟨replaced, renamed, saved⟩ := exists_of_changing (fun _ _ => ⟨_, rfl⟩) saved
  cases saved
  exact ⟨rfl, Files.read_of_rename wrote renamed⟩

theorem save_eq_ok (saved : (p.save : StateM Files _) files = (.ok p', files')) :
    p' = { p with changed := false } ∧ (p.changed → Files.read files' p.path = .ok p.text) := by
  unfold save at saved
  by_cases changed : p.changed
  · rw [if_neg (by simp [changed])] at saved
    cases above : Path.parent? p.path with
    | none =>
      rw [above] at saved
      exact (write_eq_ok saved).imp_right fun read _ => read
    | some parent =>
      rw [above] at saved
      obtain ⟨within, -, saved⟩ := exists_of_changing (fun _ _ => ⟨_, rfl⟩) saved
      exact (write_eq_ok saved).imp_right fun read _ => read
  · rw [if_pos (by simp [changed])] at saved
    cases saved
    obtain ⟨path, splits, unchanged⟩ := p
    exact ⟨congrArg _ (Bool.eq_false_iff.2 changed), fun h => absurd h changed⟩

theorem parts_layout : Path.parts "layout.json" = ["layout.json"] ∧
    Path.parts "layout.json.tmp" = ["layout.json.tmp"] ∧ Path.parts "" = [""] := by
  simp +decide [Path.parts, String.splitOn, String.splitOnAux]

theorem save_first (path : p.path = "layout.json") (changed : p.changed) :
    (p.save : StateM Files _) [] =
      (.ok { p with changed := false }, [(["layout.json"], .file p.text)]) := by
  obtain ⟨plain, draft, empty⟩ := parts_layout
  have parent : Path.parent? "layout.json" = some "" := by
    rw [Path.parent?, Path.steps, plain]
    decide
  have beside : Path.withExtension "layout.json" "json.tmp" = "layout.json.tmp" := by
    rw [Path.withExtension, Path.stem?, Path.fileName?, Path.steps, plain]
    decide
  have source (files : Files) : Files.resolve files "layout.json.tmp" = .ok ["layout.json.tmp"] := by
    rw [Files.resolve, if_neg (by simp), draft]
    rfl
  have target (files : Files) : Files.resolve files "layout.json" = .ok ["layout.json"] := by
    rw [Files.resolve, if_neg (by simp), plain]
    rfl
  have made : Files.makeDirectories [] "" = .ok [] := by
    rw [Files.makeDirectories, empty]
    rfl
  have wrote : Files.write [] "layout.json.tmp" p.text = .ok [(["layout.json.tmp"], .file p.text)] := by
    rw [Files.write, source]
    rfl
  have renamed : Files.rename [(["layout.json.tmp"], .file p.text)] "layout.json.tmp" "layout.json" =
      .ok [(["layout.json"], .file p.text)] := by
    rw [Files.rename, Files.existing, source, target]
    rfl
  have after {f : Files → Except IoFault Files} {files changed : Files} (h : f files = .ok changed)
      {β : Type} (next : Except IoFault Unit → StateM Files β) :
      (Files.changing f >>= next) files = next (.ok ()) changed := by
    rw [bind_changing, h]
  rw [save, if_neg (by simp [changed]), path, parent]
  refine (after made _).trans ?_
  rw [save.write, path, beside]
  exact (after wrote _).trans (after renamed _)

theorem Reached.sorted (reached : Reached p) : Json.Sorted p.splits := by
  induction reached with
  | loaded path content =>
    change Json.Sorted ((content.toOption.bind Splits.ofText?).getD [])
    cases read : content.toOption.bind Splits.ofText? with
    | none => exact .nil
    | some splits =>
      obtain ⟨text, -, read⟩ := Option.bind_eq_some_iff.1 read
      exact Splits.sorted_ofText? read
  | set layout s _ sorted =>
    unfold setSplit
    dsimp only
    split
    next => exact sorted
    next => exact sorted.insertField layout s.clamped
  | saved _ saved sorted =>
    rw [(save_eq_ok saved).1]
    exact sorted

theorem load_eq (reached : Reached p) (changed : p.changed)
    (saved : (p.save : StateM Files _) files = (.ok p', files'))
    (legible : ∀ entry ∈ p.splits, entry.2.Legible) :
    ((load p.path : StateM Files _) files').1 =
      { p' with splits := if ∀ entry ∈ p.splits, entry.2.Finite then p'.splits else [] } := by
  obtain ⟨rfl, read⟩ := save_eq_ok saved
  change ofContent p.path (Files.read files' p.path) = _
  have splits : Splits.ofText? p.text = _ := Splits.ofText?_pretty reached.sorted legible
  rw [read changed, ofContent]
  change ({ path := p.path, splits := (Splits.ofText? p.text).getD [] } : Preferences) = _
  rw [splits]
  split <;> rfl

-- No split that is kept follows the fallback.
theorem exists_split_ne_uniform {entry : String × Split} (kept : entry ∈ p.splits) :
    ∃ fallback, p.split entry.1 fallback ≠ .uniform fallback := by
  obtain ⟨s, found⟩ := Json.exists_lookup kept
  have fixed (fallback : Float32) : p.split entry.1 fallback = s.clamped := by rw [split, found]
  by_contra follows
  have follows (fallback : Float32) : s.clamped = .uniform fallback :=
    (fixed fallback).symm.trans (not_not.1 fun other => follows ⟨fallback, other⟩)
  have apart : (Split.uniform 0.1).horizontal ≠ (Split.uniform 0.9).horizontal := by decide
  exact apart (congrArg Split.horizontal ((follows 0.1).symm.trans (follows 0.9)))

/-- Saved preferences have the same splits when they are loaded again exactly if all ratios are finite. Otherwise
all splits are lost. -/
theorem split_load_save (reached : Reached p) (changed : p.changed)
    (saved : (p.save : StateM Files _) files = (.ok p', files'))
    (legible : ∀ entry ∈ p.splits, entry.2.Legible) :
    ((∀ layout fallback, ((load p.path : StateM Files _) files').1.split layout fallback =
        p'.split layout fallback) ↔ ∀ entry ∈ p.splits, entry.2.Finite) ∧
      ((∃ entry ∈ p.splits, ¬ entry.2.Finite) → ∀ layout fallback,
        ((load p.path : StateM Files _) files').1.split layout fallback = .uniform fallback) := by
  have kept : p'.splits = p.splits := by rw [(save_eq_ok saved).1]
  rw [load_eq reached changed saved legible]
  by_cases finite : ∀ entry ∈ p.splits, entry.2.Finite
  · rw [if_pos finite]
    exact ⟨iff_of_true (fun _ _ => rfl) finite,
      fun ⟨entry, member, infinite⟩ => absurd (finite entry member) infinite⟩
  · rw [if_neg finite]
    refine ⟨iff_of_false (fun same => ?_) finite, fun _ _ _ => rfl⟩
    obtain ⟨entry, finite⟩ := not_forall.1 finite
    obtain ⟨member, -⟩ := Classical.not_imp.1 finite
    obtain ⟨fallback, other⟩ := exists_split_ne_uniform (kept ▸ member)
    exact other (same entry.1 fallback).symm

-- One layout is only loaded, with a ratio that is out of bounds, and one is set.
theorem split_load_save_loaded_and_set :
    let content := "\x7b\"splits\": \x7b\"a\": \x7b\"horizontal\": 0.25, \"vertical\": 5\x7d\x7d\x7d"
    let p := (ofContent "layout.json" (.ok content)).setSplit "b" ⟨0.7, 0.4⟩
    ∃ p' files', (p.save : StateM Files _) [] = (.ok p', files') ∧ ∀ layout fallback,
      ((load p.path : StateM Files _) files').1.split layout fallback = p'.split layout fallback := by
  intro content p
  have changed : p.changed := by decide +kernel
  have saved := save_first (by decide +kernel : p.path = "layout.json") changed
  have finite : ∀ entry ∈ p.splits, entry.2.Finite := by decide +kernel
  have legible : ∀ entry ∈ p.splits, entry.2.Legible := by decide +kernel
  exact ⟨_, _, saved, (split_load_save (.set "b" _ (.loaded _ _)) changed saved legible).1.2 finite⟩

-- A ratio too large for single precision is loaded as infinite and written as nothing.
theorem load_save_loses_splits :
    let content := "\x7b\"splits\": \x7b\"a\": \x7b\"horizontal\": 1e39, \"vertical\": 0.5\x7d\x7d\x7d"
    let p := (ofContent "layout.json" (.ok content)).setSplit "b" ⟨0.7, 0.4⟩
    ∃ p' files', (p.save : StateM Files _) [] = (.ok p', files') ∧
      ((load p.path : StateM Files _) files').1.split "b" 0.3 ≠ p'.split "b" 0.3 := by
  intro content p
  have changed : p.changed := by decide +kernel
  have saved := save_first (by decide +kernel : p.path = "layout.json") changed
  have infinite : ¬ ∀ entry ∈ p.splits, entry.2.Finite := by decide +kernel
  have legible : ∀ entry ∈ p.splits, entry.2.Legible := by decide +kernel
  refine ⟨_, _, saved, ?_⟩
  rw [load_eq (.set "b" _ (.loaded _ _)) changed saved legible, if_neg infinite]
  have apart : (Split.uniform 0.3).horizontal ≠ (p.split "b" 0.3).horizontal := by decide +kernel
  exact fun same => apart (congrArg Split.horizontal same)

end Preferences

end Waterfall
