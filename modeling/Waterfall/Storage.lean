import Waterfall.Error
import Waterfall.Path

set_option autoImplicit false

namespace Waterfall

class Storage (m : Type → Type) where
  read : String → m (Except IoFault String)
  isDirectory : String → m (Except IoFault Bool)
  names : String → m (Except IoFault (List String))
  write : String → String → m (Except IoFault Unit)
  makeDirectories : String → m (Except IoFault Unit)
  rename : String → String → m (Except IoFault Unit)
  canonical : String → m (Except IoFault String)

inductive Files.Node where
  | file (text : String)
  | directory

abbrev Files := List (List String × Files.Node)

namespace Files

variable (files : Files)

def node? (place : List String) : Option Node :=
  if place = [] then some .directory
  else (files.find? (·.1 = place)).map (·.2)

def put (place : List String) (node : Node) : Files :=
  files.filter (·.1 ≠ place) ++ [(place, node)]

def remove (place : List String) : Files :=
  files.filter (·.1 ≠ place)

theorem node?_remove_self {place : List String} (h : place ≠ []) :
    node? (remove files place) place = none := by
  simp [node?, remove, h]

theorem node?_put_self {place : List String} (h : place ≠ []) (node : Node) :
    node? (put files place node) place = some node := by
  have none_left : files.find? (fun _ => false) = none := by simp [List.find?_eq_none]
  simp [node?, put, h, List.find?_append, none_left]

theorem node?_remove_of_ne {place other : List String} (h : other ≠ place) :
    node? (remove files place) other = node? files other := by
  simp only [node?, remove, List.find?_filter]
  congr 3
  funext file
  by_cases hf : file.1 = other <;> simp [hf, h]

theorem node?_put_of_ne {place other : List String} (h : other ≠ place) (node : Node) :
    node? (put files place node) other = node? files other := by
  rw [← node?_remove_of_ne files h]
  simp [node?, put, remove, List.find?_append, h.symm]

def walk (place : List String) : List String → Except IoFault (List String)
  | [] => .ok place
  | part :: rest =>
    match node? files place with
    | none => .error .notFound
    | some (.file _) => .error .notDirectory
    | some .directory =>
      if part = "" ∨ part = "." then walk place rest
      else if part = ".." then
        if place = [] then .error .notFound else walk place.dropLast rest
      else walk (place ++ [part]) rest

-- The working directory is the root, so paths with and without a root are walked from there.
def resolve (path : String) : Except IoFault (List String) :=
  if path = "" then .error .notFound else walk files [] (Path.parts path)

def existing (path : String) : Except IoFault (List String × Node) := do
  let place ← resolve files path
  match node? files place with
  | some node => .ok (place, node)
  | none => .error .notFound

def read (path : String) : Except IoFault String := do
  match (← existing files path).2 with
  | .file text => .ok text
  | .directory => .error .isDirectory

def isDirectory (path : String) : Except IoFault Bool := do
  match (← existing files path).2 with
  | .file _ => .ok false
  | .directory => .ok true

def names (path : String) : Except IoFault (List String) := do
  match ← existing files path with
  | (_, .file _) => .error .notDirectory
  | (place, .directory) =>
    .ok (files.filterMap fun (other, _) =>
      if other.dropLast = place then other.getLast? else none)

def write (path text : String) : Except IoFault Files := do
  let place ← resolve files path
  match node? files place with
  | some .directory => .error .isDirectory
  | _ => .ok (put files place (.file text))

def makeAlong (place : List String) : List String → Files → Except IoFault Files
  | [], files => .ok files
  | part :: rest, files =>
    if part = "" ∨ part = "." then makeAlong place rest files
    else if part = ".." then makeAlong place.dropLast rest files
    else
      let next := place ++ [part]
      match node? files next with
      | some .directory => makeAlong next rest files
      | some (.file _) => .error (if rest.isEmpty then .exists else .notDirectory)
      | none => makeAlong next rest (put files next .directory)

def makeDirectories (path : String) : Except IoFault Files :=
  makeAlong [] (Path.parts path) files

def rename (source target : String) : Except IoFault Files := do
  let (place, node) ← existing files source
  let next ← resolve files target
  match node? files next, node with
  | some .directory, .file _ => .error .isDirectory
  | some (.file _), .directory => .error .notDirectory
  | _, _ => .ok (put (remove files place) next node)

def delete (path : String) : Except IoFault Files := do
  match ← existing files path with
  | (_, .directory) => .error .isDirectory
  | (place, .file _) => .ok (remove files place)

def canonical (path : String) : Except IoFault String := do
  .ok ("/" ++ "/".intercalate (← existing files path).1)

def withDirectory (path : String) : Files :=
  (makeDirectories files path).toOption.getD files

def withFile (path text : String) : Files :=
  let files := withDirectory files ((Path.parent? path).getD "")
  (write files path text).toOption.getD files

def without (path : String) : Files :=
  (delete files path).toOption.getD files

def changing (f : Files → Except IoFault Files) : StateM Files (Except IoFault Unit) := fun files =>
  match f files with
  | .ok files => (.ok (), files)
  | .error fault => (.error fault, files)

instance : Storage (StateM Files) where
  read path := fun files => (read files path, files)
  isDirectory path := fun files => (isDirectory files path, files)
  names path := fun files => (names files path, files)
  write path text := changing fun files => write files path text
  makeDirectories path := changing fun files => makeDirectories files path
  rename source target := changing fun files => rename files source target
  canonical path := fun files => (canonical files path, files)

end Files

end Waterfall
