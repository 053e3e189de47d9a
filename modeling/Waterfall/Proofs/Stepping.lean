import Waterfall.Proofs.Layout
import Waterfall.View

set_option autoImplicit false

namespace Waterfall

-- The search stops at the first row with the id, which is this one as the ids are apart.
theorem Row.find?_eq_of_getElem? {spans : List Span} (apart : (spans.map (·.id)).Nodup) {i : Nat}
    {row : Row} (listed : (ofSpans spans)[i]? = some row) :
    (ofSpans spans).find? (·.span.id = row.span.id) = some row := by
  have apart_rows : ((ofSpans spans).map (·.span.id)).Nodup := by
    have perm := (inRows_perm spans).map (·.id)
    rw [inRows, List.map_map] at perm
    exact perm.nodup_iff.2 apart
  cases found : (ofSpans spans).find? (·.span.id = row.span.id) with
  | none =>
    have other := List.find?_eq_none.1 found row (List.mem_of_getElem? listed)
    simp at other
  | some first =>
    have same : first.span.id = row.span.id := by simpa using List.find?_some found
    rw [List.inj_on_of_nodup_map apart_rows (List.mem_of_find?_eq_some found)
      (List.mem_of_getElem? listed) same]

namespace ShownTrace

def stepped (count row : Nat) (offset : Int) : Nat :=
  (max 0 (min (row + offset) (count - 1))).toNat

section

variable {count i : Nat} (inside : i < count)

include inside

theorem stepped_lt (offset : Int) : stepped count i offset < count := by
  rw [stepped]
  omega

theorem stepped_one : stepped count i 1 = min (i + 1) (count - 1) := by
  rw [stepped]
  omega

theorem lt_of_mem_scanl {offsets : List Int} {j : Nat}
    (member : j ∈ offsets.scanl (stepped count) i) : j < count := by
  induction offsets generalizing i with
  | nil => exact List.mem_singleton.1 member ▸ inside
  | cons offset rest ih =>
    rw [List.scanl_cons, List.mem_cons] at member
    obtain rfl | later := member
    · exact inside
    · exact ih (stepped_lt inside offset) later

theorem scanl_stepped_one (m : Nat) :
    (List.replicate m 1).scanl (stepped count) i =
      (List.range (m + 1)).map fun k => min (i + k) (count - 1) := by
  have here : min (i + 0) (count - 1) = i := by omega
  induction m generalizing i with
  | zero => rw [List.replicate_zero, List.scanl_nil, List.range_one, List.map_singleton, here]
  | succ m ih =>
    have next : min (i + 1) (count - 1) < count := by omega
    have later (k : Nat) : min (min (i + 1) (count - 1) + k) (count - 1) =
        min (i + (k + 1)) (count - 1) := by omega
    rw [List.replicate_succ, List.scanl_cons, stepped_one inside, ih next (by omega),
      List.range_succ_eq_map (n := m + 1), List.map_cons, List.map_map, here]
    simp only [Function.comp_def, later, Nat.succ_eq_add_one]

end

def steps (t : ShownTrace) : List Int → List (Option Nat × Option Row)
  | [] => []
  | offset :: rest =>
    ((t.move offset).2, (t.move offset).1.selectedRow?) :: (t.move offset).1.steps rest

section

variable {d : Document} {t : ShownTrace} (traced : t.trace = .ofDocument d)

include traced

theorem exists_row {i : Nat} (inside : i < t.rows.length) :
    ∃ row, t.rows[i]? = some row ∧ row.index = i := by
  obtain ⟨row, listed⟩ : ∃ row, t.rows[i]? = some row := ⟨_, List.getElem?_eq_getElem inside⟩
  refine ⟨row, listed, ?_⟩
  rw [rows, traced] at listed
  exact Row.index_eq_of_getElem? listed

theorem selectedRow?_select {i : Nat} {row : Row} (listed : t.rows[i]? = some row) :
    (t.select row.span.id).selectedRow? = some row := by
  rw [rows, traced] at listed
  rw [selectedRow?, select, Option.bind_some, traced]
  exact Row.find?_eq_of_getElem? (Span.ids_nodup d) listed

theorem move_of_targetRow {offset : Int} {i : Nat} (target : t.targetRow offset = i)
    (inside : i < t.rows.length) :
    (t.move offset).1.trace = t.trace ∧ (t.move offset).1.selectedRow? = t.rows[i]? ∧
      (t.move offset).2 = some i := by
  obtain ⟨row, listed, -⟩ := exists_row traced inside
  rw [move, target, listed]
  exact ⟨rfl, selectedRow?_select traced listed, rfl⟩

theorem targetRow_of_selected {i : Nat} (inside : i < t.rows.length)
    (selected : t.selectedRow? = t.rows[i]?) (offset : Int) :
    t.targetRow offset = stepped t.rows.length i offset := by
  obtain ⟨row, listed, rfl⟩ := exists_row traced inside
  rw [targetRow, selected, listed, stepped]
  dsimp only
  omega

-- Every step starts from the row that the one before it answered.
theorem steps_of_targetRow {first : Int} {i : Nat} (target : t.targetRow first = i)
    (inside : i < t.rows.length) (rest : List Int) :
    t.steps (first :: rest) =
      (rest.scanl (stepped t.rows.length) i).map fun j => (some j, t.rows[j]?) := by
  induction rest generalizing t first i with
  | nil =>
    obtain ⟨-, selected, answered⟩ := move_of_targetRow traced target inside
    rw [steps, answered, selected]
    rfl
  | cons offset rest ih =>
    obtain ⟨trace, selected, answered⟩ := move_of_targetRow traced target inside
    have rows_eq : (t.move first).1.rows = t.rows := congrArg Trace.rows trace
    rw [← rows_eq] at inside selected
    have next := targetRow_of_selected (trace.trans traced) inside selected offset
    have later := ih (trace.trans traced) next (stepped_lt inside offset)
    rw [steps, answered, selected, later, rows_eq, List.scanl_cons, List.map_cons]

end

/-- Steps pass the rows in order, each as far as its offset says within the rows, and the row that is answered is the
one that is selected. -/
theorem steps_ofDocument (handle : String) (d : Document) (first : Int) (rest : List Int) :
    let t : ShownTrace := ⟨handle, .ofDocument d, none⟩
    let answers := rest.scanl (stepped t.rows.length) 0
    View.ofResult handle (.ok (some d)) = .shown t ∧
      t.steps (first :: rest) = answers.map (fun i => (some i, t.rows[i]?)) ∧
      (∀ i ∈ answers, ∃ row, t.rows[i]? = some row ∧ row.index = i) ∧
      ∀ m, t.steps (List.replicate m 1) = (List.range m).map fun k =>
        (some (min k (t.rows.length - 1)), t.rows[min k (t.rows.length - 1)]?) := by
  intro t answers
  have traced : t.trace = .ofDocument d := rfl
  have some_row : 0 < t.rows.length := Trace.one_le_length_rows d
  -- Nothing is selected yet.
  have start (offset : Int) : t.targetRow offset = 0 := rfl
  refine ⟨rfl, steps_of_targetRow traced (start first) some_row rest, fun i member => ?_, fun m => ?_⟩
  · exact exists_row traced (lt_of_mem_scanl some_row member)
  · cases m with
    | zero => rfl
    | succ m =>
      rw [List.replicate_succ, steps_of_targetRow traced (start 1) some_row, scanl_stepped_one some_row,
        List.map_map]
      simp only [Function.comp_def, Nat.zero_add]

end ShownTrace

end Waterfall
