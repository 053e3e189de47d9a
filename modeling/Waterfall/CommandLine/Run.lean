import Waterfall.CommandLine.Command
import Waterfall.Settings.OfYaml
import Waterfall.Settings.ToYaml
import Waterfall.Source

set_option autoImplicit false

namespace Waterfall

namespace CommandLine

variable {m : Type → Type} [Monad m] [Storage m]

def baseDirectory? (environment : String → Option String) (name below : String) : Option String :=
  match (environment name).filter (·.startsWith "/") with
  | some path => some path
  | none => ((environment "HOME").filter (· ≠ "")).map (Path.join · below)

def usualSettings? (environment : String → Option String) : Option String :=
  (baseDirectory? environment "XDG_CONFIG_HOME" ".config").map
    (Path.join · "hookscope/config.yaml")

def usualLog? (environment : String → Option String) : Option String :=
  (baseDirectory? environment "XDG_DATA_HOME" ".local/share").map
    (Path.join · "hookscope/hookscope.log")

def Globals.changes (g : Globals) : Settings.Changes where
  theme := g.theme
  mouse := if g.noMouse = some true then some false else none
  watch := if g.watch = some true then some true else none
  logFile := g.logFile
  debug := some (g.debug.getD false)

def settingsText (asked usual : Option String) : m (Except Error (Option String)) := do
  match asked with
  | some path =>
    match ← Storage.read path with
    | .ok text => return .ok (some text)
    | .error fault =>
      return .error (.config ("Failed to read config file " ++ quoted path ++ ": " ++ fault.message))
  | none =>
    match usual with
    | none => return .ok none
    | some path => return .ok (← Storage.read path).toOption

def settings (g : Globals) (usual : Option String) : m (Except Error Settings) := do
  match ← settingsText g.config usual with
  | .error e => return .error e
  | .ok text =>
    let base := match text with
      | some text => Settings.ofText text
      | none => .ok {}
    return base.bind fun s => (s.change g.changes).checked

def openLog (path : String) : m (Except Error Unit) := do
  let parent := ((Path.parent? path).filter (· ≠ "")).getD ""
  match ← Storage.makeDirectories parent with
  | .error fault => return .error (.io fault)
  | .ok () =>
    match ← Storage.read path with
    | .ok text => return Source.orIo (← Storage.write path text)
    | .error .notFound => return Source.orIo (← Storage.write path "")
    | .error fault => return .error (.io fault)

def trace (file : String) : m (Except Error Trace) := do
  match ← Source.readFile file with
  | .error e => return .error e
  | .ok none => return .error (.fetch file (.other "no trace recorded"))
  | .ok (some document) => return .ok (.ofDocument document)

def flatten (file : String) (layout : Bool) : m (Except Error String) := do
  return (← trace file).map fun t => if layout then t.rowsText else t.spansText

inductive Stop where
  | error (e : Error)
  | overflow

def render (s : Settings) (file : String) (p : Picture) : m (Except Stop String) := do
  match ← trace file with
  | .error e => return .error (.error e)
  | .ok t =>
    match t.picture? s p with
    | some scene => return .ok scene.toSvg
    | none => return .error .overflow

def line (r : Except Stop String) : Except Stop String :=
  r.map (· ++ "\n")

-- What a command prints. An interactive view is not run here, only the check that there is
-- something to view.
def run (s : Settings) : Command → m (Except Stop String)
  | .checkConfig => return .ok s.report
  | .flatten file layout => do return line ((← flatten file layout).mapError .error)
  | .render file picture none => do return line (← render s file picture)
  | .render file picture (some output) => do
    match ← render s file picture with
    | .error stop => return .error stop
    | .ok svg => return ((Source.orIo (← Storage.write output svg)).map fun _ => "").mapError .error
  | .view path => do
    match ← Source.ofPath path with
    | .error e => return .error (.error e)
    | .ok _ => return .error (.error (.terminal "no terminal to view traces in"))

def logPath? (environment : String → Option String) (s : Settings) : Command → Option String
  | .view _ => s.logFile.or (usualLog? environment)
  | _ => s.logFile

def execute (environment : String → Option String) (invocation : Invocation) :
    m (Except Stop String) := do
  match ← settings invocation.globals (usualSettings? environment) with
  | .error e => return .error (.error e)
  | .ok s =>
    let command := invocation.command.getD (.view ".")
    let log ← match logPath? environment s command with
      | some path => openLog path
      | none => pure (.ok ())
    match log with
    | .error e => return .error (.error e)
    | .ok () => run s command

def ioKind : IoFault → String
  | .notFound => "Os \x7b code: 2, kind: NotFound, message: \"No such file or directory\" \x7d"
  | .exists => "Os \x7b code: 17, kind: AlreadyExists, message: \"File exists\" \x7d"
  | .notDirectory => "Os \x7b code: 20, kind: NotADirectory, message: \"Not a directory\" \x7d"
  | .isDirectory => "Os \x7b code: 21, kind: IsADirectory, message: \"Is a directory\" \x7d"
  | fault => quoted fault.message

def describe : Error → String
  | .config text => "Config(" ++ quoted text ++ ")"
  | .fetch handle fault =>
    "Fetch \x7b handle: " ++ quoted handle ++ ", message: " ++ quoted fault.message ++ " \x7d"
  | .traceNotFound handle => "TraceNotFound(" ++ quoted handle ++ ")"
  | .terminal text => "Terminal(" ++ quoted text ++ ")"
  | .watch text => "Watch(" ++ quoted text ++ ")"
  | .prefs text => "Prefs(" ++ quoted text ++ ")"
  | .io fault => "Io(" ++ ioKind fault ++ ")"
  | .serialization => "Serialization"
  | .yaml => "Yaml"

structure Exit where
  status : Nat
  output : String
  complaint : String

def versionText : String := "hookscope 0.1.0\n"

def usage : String :=
  "Usage: hookscope [OPTIONS] [COMMAND]\n\nCommands:\n"
    ++ "  view          Browse evaluations interactively (default)\n"
    ++ "  flatten       Print the flattened spans of a trace as JSON\n"
    ++ "  render        Render a trace timeline to SVG\n"
    ++ "  check-config  Validate configuration and exit\n"

def Exit.ofRefusal : Refusal → Exit
  | .help => ⟨0, usage, ""⟩
  | .version => ⟨0, versionText, ""⟩
  | _ => ⟨2, "", usage⟩

def Exit.ofResult : Except Stop String → Exit
  | .ok output => ⟨0, output, ""⟩
  | .error (.error e) => ⟨1, "", "Error: " ++ describe e⟩
  | .error .overflow => ⟨101, "", "attempt to add with overflow"⟩

def answer (environment : String → Option String) (words : List String) : m Exit := do
  match Invocation.ofWords environment words with
  | .error refusal => return .ofRefusal refusal
  | .ok invocation => return .ofResult (← execute environment invocation)

end CommandLine

end Waterfall
