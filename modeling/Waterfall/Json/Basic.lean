set_option autoImplicit false

namespace Waterfall

inductive Json where
  | null
  | bool (b : Bool)
  | int (n : Int)
  | float (x : Float)
  -- A number that is written with no more digits than single precision needs.
  | single (x : Float32)
  | string (s : String)
  | array (items : List Json)
  | object (fields : List (String × Json))
  deriving Inhabited

namespace Json

def insertField {α : Type} (key : String) (value : α) : List (String × α) → List (String × α)
  | [] => [(key, value)]
  | (k, v) :: rest =>
    if key = k then (key, value) :: rest
    else if key < k then (key, value) :: (k, v) :: rest
    else (k, v) :: insertField key value rest

def ofFields (fields : List (String × Json)) : Json :=
  .object (fields.foldl (fun acc (k, v) => insertField k v acc) [])

mutual

-- The keys of all objects in order; of a repeated key the last value holds.
def sorted : Json → Json
  | .array items => .array (sortedItems items)
  | .object fields => .object (sortedFields [] fields)
  | j => j

def sortedItems : List Json → List Json
  | [] => []
  | v :: rest => sorted v :: sortedItems rest

def sortedFields (done : List (String × Json)) : List (String × Json) → List (String × Json)
  | [] => done
  | (k, v) :: rest => sortedFields (insertField k (sorted v) done) rest

end

def lookup {α : Type} (key : String) : List (String × α) → Option α
  | [] => none
  | (k, v) :: rest => if k = key then some v else lookup key rest

@[simp] theorem lookup_insertField_self {α : Type} (key : String) (value : α)
    (fields : List (String × α)) : lookup key (insertField key value fields) = some value := by
  induction fields with
  | nil => simp [insertField, lookup]
  | cons field rest ih =>
    simp only [insertField]
    split
    · simp [lookup]
    · next h =>
      split
      · simp [lookup]
      · simp [lookup, Ne.symm h, ih]

theorem lookup_insertField_of_ne {α : Type} {key other : String} (h : other ≠ key) (value : α)
    (fields : List (String × α)) :
    lookup other (insertField key value fields) = lookup other fields := by
  induction fields with
  | nil => simp [insertField, lookup, h.symm]
  | cons field rest ih =>
    simp only [insertField]
    split
    · next hk => simp [lookup, hk ▸ h.symm, h.symm]
    · split
      · simp [lookup, h.symm]
      · simp [lookup, ih]

abbrev field? (key : String) (fields : List (String × Json)) : Option Json :=
  lookup key fields

def get? (j : Json) (key : String) : Option Json :=
  match j with
  | .object fields => field? key fields
  | _ => none

def string? : Json → Option String
  | .string s => some s
  | _ => none

def ofOption {α : Type} (write : α → Json) : Option α → Json
  | none => .null
  | some a => write a

def ofStrings (ss : List String) : Json :=
  .array (ss.map .string)

end Json

end Waterfall
