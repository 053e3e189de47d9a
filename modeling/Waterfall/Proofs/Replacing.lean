import Mathlib.Data.List.Basic
import Waterfall.Storage

set_option autoImplicit false

namespace Waterfall

namespace Files

variable {files files' : Files} {path text : String}

def Directories (files files' : Files) : Prop :=
  ∀ place, node? files place = some .directory → node? files' place = some .directory

theorem walk_of_directories (kept : Directories files files') {place target : List String}
    {parts : List String} (h : walk files place parts = .ok target) :
    walk files' place parts = .ok target := by
  induction parts generalizing place with
  | nil => exact h
  | cons part rest ih =>
    rw [walk] at h ⊢
    cases here : node? files place with
    | none => simp [here] at h
    | some node =>
      cases node with
      | file _ => simp [here] at h
      | directory =>
        simp only [here] at h
        simp only [kept place here]
        split at h
        next same =>
          rw [if_pos same]
          exact ih h
        next other =>
          rw [if_neg other]
          split at h
          next up =>
            rw [if_pos up]
            split at h
            next => cases h
            next below =>
              rw [if_neg below]
              exact ih h
          next down =>
            rw [if_neg down]
            exact ih h

theorem resolve_of_directories (kept : Directories files files') {place : List String}
    (h : resolve files path = .ok place) : resolve files' path = .ok place := by
  rw [resolve] at h ⊢
  split at h
  next => cases h
  next relative =>
    rw [if_neg relative]
    exact walk_of_directories kept h

theorem ne_nil_of_node? {place : List String} (h : node? files place ≠ some .directory) : place ≠ [] := by
  rintro rfl
  exact h rfl

theorem directories_put {place : List String} (other : node? files place ≠ some .directory) (node : Node) :
    Directories files (put files place node) := by
  intro place' directory
  have apart : place' ≠ place := fun same => other (same ▸ directory)
  rw [node?_put_of_ne files apart, directory]

theorem directories_remove {place : List String} (other : node? files place ≠ some .directory) :
    Directories files (remove files place) := by
  intro place' directory
  have apart : place' ≠ place := fun same => other (same ▸ directory)
  rw [node?_remove_of_ne files apart, directory]

theorem write_eq_ok (h : write files path text = .ok files') :
    ∃ place, resolve files path = .ok place ∧ node? files place ≠ some .directory ∧
      files' = put files place (.file text) := by
  unfold write at h
  cases resolved : resolve files path with
  | error fault => simp [resolved, bind, Except.bind] at h
  | ok place =>
    simp only [resolved, bind, Except.bind] at h
    split at h
    next => cases h
    next other => exact ⟨place, rfl, other, (Except.ok.inj h).symm⟩

theorem existing_eq_ok {place : List String} {node : Node} (resolved : resolve files path = .ok place)
    (here : node? files place = some node) : existing files path = .ok (place, node) := by
  simp [existing, resolved, here, bind, Except.bind]

theorem read_eq_ok {place : List String} (resolved : resolve files path = .ok place)
    (here : node? files place = some (.file text)) : read files path = .ok text := by
  simp [read, existing_eq_ok resolved here, bind, Except.bind]

-- The target may be the source itself, or may lie where nothing is yet.
theorem rename_eq_ok {source target : String} {place : List String}
    (resolved : resolve files source = .ok place) (here : node? files place = some (.file text))
    (h : rename files source target = .ok files') :
    ∃ next, resolve files target = .ok next ∧ node? files next ≠ some .directory ∧
      files' = put (remove files place) next (.file text) := by
  unfold rename at h
  rw [existing_eq_ok resolved here] at h
  cases aimed : resolve files target with
  | error fault => simp [aimed, bind, Except.bind] at h
  | ok next =>
    simp only [aimed, bind, Except.bind] at h
    split at h
    next => cases h
    next _ _ same => cases same
    next other _ => exact ⟨next, rfl, fun directory => other text directory rfl, (Except.ok.inj h).symm⟩

theorem read_of_rename {draft : String} {written : Files} (wrote : write files draft text = .ok written)
    (renamed : rename written draft path = .ok files') : read files' path = .ok text := by
  obtain ⟨place, resolved, other, rfl⟩ := write_eq_ok wrote
  have resolved := resolve_of_directories (directories_put other (.file text)) resolved
  have here := node?_put_self files (ne_nil_of_node? other) (.file text)
  obtain ⟨next, aimed, free, rfl⟩ := rename_eq_ok resolved here renamed
  generalize put files place (.file text) = written at aimed free here
  have file : node? written place ≠ some .directory := by simp [here]
  have free : node? (remove written place) next ≠ some .directory := by
    by_cases same : next = place
    · simp [same, node?_remove_self written (ne_nil_of_node? file)]
    · rwa [node?_remove_of_ne written same]
  have aimed := resolve_of_directories (directories_remove file) aimed
  exact read_eq_ok (resolve_of_directories (directories_put free _) aimed)
    (node?_put_self _ (ne_nil_of_node? free) _)

end Files

end Waterfall
