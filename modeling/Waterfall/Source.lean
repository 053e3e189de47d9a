import Waterfall.Document.Text
import Waterfall.Storage

set_option autoImplicit false

namespace Waterfall

inductive Source where
  | files (paths : List String)
  | directory (path : String)

namespace Source

variable {m : Type → Type} [Monad m] [Storage m]

def orIo {α : Type} : Except IoFault α → Except Error α
  | .ok a => .ok a
  | .error fault => .error (.io fault)

def orFetch {α : Type} (handle : String) : Except IoFault α → Except Error α
  | .ok a => .ok a
  | .error fault => .error (.fetch handle (.io fault))

def ofPath (path : String) : m (Except Error Source) := do
  return (orFetch path (← Storage.isDirectory path)).map fun isDirectory =>
    if isDirectory then .directory path else .files [path]

def root? : Source → Option String
  | .files _ => none
  | .directory path => some path

def isJson (name : String) : Bool :=
  (Path.extension? name).any fun e => e.toLower = "json"

def handlesIn (directory : String) (names : List String) : List String :=
  let sorted := (names.filter isJson).mergeSort fun a b => decide (a ≤ b)
  sorted.map (Path.join directory)

def list : Source → m (Except Error (List String))
  | .files paths => return .ok paths
  | .directory path => do
    return (orIo (← Storage.names path)).map (handlesIn path)

def document (handle : String) (missing : Error) (text : Except IoFault String) :
    Except Error (Option Document) :=
  match text with
  | .ok text => Document.ofText handle text
  | .error .notFound => .error missing
  | .error fault => .error (.fetch handle (.io fault))

def fetch (handle : String) : m (Except Error (Option Document)) := do
  return document handle (.traceNotFound handle) (← Storage.read handle)

def readFile (path : String) : m (Except Error (Option Document)) := do
  return document path (.fetch path (.io .notFound)) (← Storage.read path)

-- Whether a change at a path concerns a target. Changes are told by absolute paths, and the file
-- may be gone.
def concerns (target path : String) : m Bool := do
  if Path.steps target = Path.steps path then return true
  match ← Storage.canonical target, ← Storage.canonical path with
  | .ok a, .ok b => return a = b
  | _, _ => return Path.endsWith path target

end Source

end Waterfall
