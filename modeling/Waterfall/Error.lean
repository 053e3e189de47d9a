import Waterfall.Json.Fault
import Waterfall.Document.Fault

set_option autoImplicit false

namespace Waterfall

inductive IoFault where
  | notFound
  | notDirectory
  | isDirectory
  | exists
  | invalidText
  | other (text : String)
  deriving DecidableEq

def IoFault.message : IoFault → String
  | .notFound => "No such file or directory (os error 2)"
  | .exists => "File exists (os error 17)"
  | .notDirectory => "Not a directory (os error 20)"
  | .isDirectory => "Is a directory (os error 21)"
  | .invalidText => "stream did not contain valid UTF-8"
  | .other text => text

inductive FetchFault where
  | invalidJson (fault : Json.ReadFault)
  | notDocument (fault : Document.Fault)
  | io (fault : IoFault)
  | other (text : String)
  deriving DecidableEq

def FetchFault.message : FetchFault → String
  | .invalidJson fault => "invalid JSON: " ++ fault.message
  | .notDocument fault => "not a trace document: " ++ fault.message
  | .io fault => fault.message
  | .other text => text

inductive Error where
  | config (text : String)
  | fetch (handle : String) (fault : FetchFault)
  | traceNotFound (handle : String)
  | terminal (text : String)
  | watch (text : String)
  | prefs (text : String)
  | io (fault : IoFault)
  | serialization
  | yaml
  deriving DecidableEq

namespace Error

def message : Error → String
  | .config text => "Configuration error: " ++ text
  | .fetch handle fault => "Failed to load trace " ++ handle ++ ": " ++ fault.message
  | .traceNotFound handle => "Trace not found: " ++ handle
  | .terminal text => "Terminal UI error: " ++ text
  | .watch text => "File watch error: " ++ text
  | .prefs text => "Layout preferences error: " ++ text
  | .io fault => "IO error: " ++ fault.message
  | .serialization => "Serialization error:"
  | .yaml => "YAML error:"

def recoverable : Error → Bool
  | .fetch .. | .traceNotFound _ | .io _ | .watch _ => true
  | _ => false

def category : Error → String
  | .config _ | .yaml => "config"
  | .fetch .. | .traceNotFound _ => "fetch"
  | .terminal _ => "ui"
  | .watch _ => "watch"
  | .prefs _ => "prefs"
  | .io _ => "io"
  | .serialization => "serialization"

end Error

end Waterfall
