set_option autoImplicit false

namespace Waterfall

/-- A step of a path. A step to the same directory counts only at the start. -/
inductive Path.Step where
  | root
  | current
  | parent
  | name (s : String)
  deriving DecidableEq

namespace Path

def parts (path : String) : List String :=
  path.splitOn "/"

def stepOf (part : String) : Step :=
  if part = ".." then .parent else .name part

def innerSteps (parts : List String) : List Step :=
  (parts.filter fun p => p ≠ "" ∧ p ≠ ".").map stepOf

def steps (path : String) : List Step :=
  match parts path with
  | "" :: _ :: _ => .root :: innerSteps (parts path)
  | "." :: _ => .current :: innerSteps (parts path)
  | ps => innerSteps ps

def fileName? (path : String) : Option String :=
  match (steps path).getLast? with
  | some (.name s) => some s
  | _ => none

-- A file name split at its last dot; a dot at the start does not count.
def splitName (name : String) : String × Option String :=
  let cs := name.toList.reverse
  match cs.dropWhile (· ≠ '.') with
  | [] => (name, none)
  | _ :: [] => (name, none)
  | _ :: stem => (String.ofList stem.reverse, some (String.ofList (cs.takeWhile (· ≠ '.')).reverse))

def stem? (path : String) : Option String :=
  (fileName? path).map fun name => (splitName name).1

def extension? (path : String) : Option String :=
  (fileName? path).bind fun name => (splitName name).2

def Step.text : Step → String
  | .root => ""
  | .current => "."
  | .parent => ".."
  | .name s => s

def ofSteps (steps : List Step) : String :=
  if steps = [.root] then "/" else "/".intercalate (steps.map Step.text)

def parent? (path : String) : Option String :=
  match (steps path).getLast? with
  | none | some .root => none
  | some _ => some (ofSteps (steps path).dropLast)

def withExtension (path extension : String) : String :=
  match stem? path with
  | none => path
  | some stem => ofSteps ((steps path).dropLast ++ [.name (stem ++ "." ++ extension)])

def join (directory name : String) : String :=
  if directory = "" ∨ directory.endsWith "/" then directory ++ name else directory ++ "/" ++ name

def endsWith (path suffix : String) : Bool :=
  (steps suffix).isSuffixOf (steps path)

end Path

def handleLabel (handle : String) : String :=
  (Path.stem? handle).getD handle

end Waterfall
