import Waterfall.CommandLine.Run

set_option autoImplicit false

namespace Waterfall

def faultOfSystem : IO.Error → IoFault
  | .noFileOrDirectory .. => .notFound
  | .alreadyExists .. => .exists
  | .inappropriateType .. => .isDirectory
  | e => .other (toString e)

def attempt {α : Type} (action : IO α) : IO (Except IoFault α) := do
  match ← action.toBaseIO with
  | .ok a => return .ok a
  | .error e => return .error (faultOfSystem e)

def readText (path : String) : IO (Except IoFault String) := do
  return (← attempt (IO.FS.readBinFile path)).bind fun bytes =>
    match String.fromUTF8? bytes with
    | some text => .ok text
    | none => .error .invalidText

def placeIsDirectory (path : String) : IO (Except IoFault Bool) := do
  return (← attempt (IO.FS.realPath path >>= fun place => place.metadata)).map (·.type == .dir)

def namesIn (path : String) : IO (Except IoFault (List String)) := do
  return (← attempt (IO.FS.realPath path >>= fun place => place.readDir)).map fun entries =>
    entries.toList.map (·.fileName)

instance : Storage IO where
  read := readText
  isDirectory := placeIsDirectory
  names := namesIn
  write path text := attempt (IO.FS.writeFile path text)
  makeDirectories path := attempt (IO.FS.createDirAll path)
  rename source target := attempt (IO.FS.rename source target)
  canonical path := attempt (return (← IO.FS.realPath path).toString)

def environmentOfSystem : IO (String → Option String) := do
  let values ← CommandLine.variableNames.mapM fun name => return (name, ← IO.getEnv name)
  return fun name => (values.lookup name).join

def program (words : List String) : IO UInt32 := do
  let exit : CommandLine.Exit ← CommandLine.answer (← environmentOfSystem) words
  (← IO.getStdout).putStr exit.output
  unless exit.complaint = "" do (← IO.getStderr).putStrLn exit.complaint
  return exit.status.toUInt32

end Waterfall

def main (words : List String) : IO UInt32 :=
  Waterfall.program words
