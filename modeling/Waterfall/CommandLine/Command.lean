import Waterfall.CommandLine.Grammar
import Waterfall.Export
import Waterfall.Settings.Basic

set_option autoImplicit false

namespace Waterfall

namespace CommandLine

inductive Command where
  | view (path : String)
  | flatten (file : String) (layout : Bool)
  | render (file : String) (picture : Picture) (output : Option String)
  | checkConfig

structure Globals where
  config : Option String := none
  debug : Option Bool := none
  theme : Option Theme := none
  noMouse : Option Bool := none
  watch : Option Bool := none
  logFile : Option String := none

def Globals.or (a b : Globals) : Globals where
  config := a.config.or b.config
  debug := a.debug.or b.debug
  theme := a.theme.or b.theme
  noMouse := a.noMouse.or b.noMouse
  watch := a.watch.or b.watch
  logFile := a.logFile.or b.logFile

structure Invocation where
  command : Option Command
  globals : Globals

def themeText (s : String) : Except Refusal Theme :=
  match Theme.ofName? s with
  | some t => .ok t
  | none => .error .invalidValue

variable {σ : Type}

def globalOptions (lift : (Globals → Globals) → σ → σ) : List (Parameter σ) :=
  [{ name := "config", letter := 'c', setting? := "HOOKSCOPE_CONFIG"
     effect := textValue (fun v => lift fun g => { g with config := some v }) pathText },
    { name := "debug", letter := 'd', setting? := "HOOKSCOPE_DEBUG"
      effect := .flag fun b => lift fun g => { g with debug := some b } },
    { name := "theme", setting? := "HOOKSCOPE_THEME"
      effect := textValue (fun v => lift fun g => { g with theme := some v }) themeText },
    { name := "no-mouse", setting? := "HOOKSCOPE_NO_MOUSE"
      effect := .flag fun b => lift fun g => { g with noMouse := some b } },
    { name := "watch", letter := 'w', setting? := "HOOKSCOPE_WATCH"
      effect := .flag fun b => lift fun g => { g with watch := some b } },
    { name := "log-file", setting? := "HOOKSCOPE_LOG_FILE"
      effect := textValue (fun v => lift fun g => { g with logFile := some v }) pathText },
    { name := "help", letter := 'h', effect := .ask .help }]

structure Draft (σ : Type) where
  fields : σ
  globals : Globals := {}

def setFields (f : σ → σ) (d : Draft σ) : Draft σ := { d with fields := f d.fields }

def draftOptions : List (Parameter (Draft σ)) :=
  globalOptions fun f d => { d with globals := f d.globals }

def option (name : String) (effect : Effect (Draft σ)) : Parameter (Draft σ) :=
  { name := name, effect := effect }

def viewGrammar : Grammar (Draft String) where
  options := draftOptions
  arguments := [option "path" (textValue (fun v => setFields fun _ => v) pathText)]

structure FlattenFields where
  file : Option String := none
  layout : Bool := false

def flattenGrammar : Grammar (Draft FlattenFields) where
  options :=
    option "layout" (.flag fun b => setFields fun f => { f with layout := b }) :: draftOptions
  arguments :=
    [option "file" (textValue (fun v => setFields fun f => { f with file := some v }) pathText)]

structure RenderFields where
  file : Option String := none
  picture : Picture := {}
  output : Option String := none

def pictureOption {α : Type} (name : String) (read : String → Except Refusal α)
    (set : α → Picture → Picture) : Parameter (Draft RenderFields) :=
  option name (textValue (fun v => setFields fun f => { f with picture := set v f.picture }) read)

def renderGrammar : Grammar (Draft RenderFields) where
  options :=
    [pictureOption "width" (natText (UInt32.size - 1)) fun n p => { p with width := n },
      pictureOption "height" (natText (UInt32.size - 1)) fun n p => { p with height := n },
      pictureOption "zoom" numberText fun x p => { p with zoom := x },
      pictureOption "at" (natText (UInt64.size - 1)) fun n p => { p with anchor := .ofNat n },
      pictureOption "scroll" numberText fun x p => { p with scroll := x },
      pictureOption "select" anyText fun s p => { p with selected := some s },
      { option "output" (textValue (fun v => setFields fun f => { f with output := some v }) pathText)
        with letter := 'o' }]
      ++ draftOptions
  arguments :=
    [option "file" (textValue (fun v => setFields fun f => { f with file := some v }) pathText)]

def checkConfigGrammar : Grammar (Draft Unit) where
  options := draftOptions

def commandNames : List String := ["view", "flatten", "render", "check-config"]

def topGrammar : Grammar Globals where
  options :=
    globalOptions id ++ [{ name := "version", letter := 'V', effect := .ask .version }]
  commands := commandNames ++ ["help"]

def variableNames : List String :=
  topGrammar.options.filterMap (·.setting?) ++ ["HOME", "XDG_CONFIG_HOME", "XDG_DATA_HOME"]

def readDraft (g : Grammar (Draft σ)) (environment : String → Option String) (start : σ)
    (words : List String) : Except Refusal (Draft σ) := do
  let (r, _) ← g.scan { value := { fields := start } } words
  let r ← r.settle
  let _ ← g.fromEnvironment environment { fields := start } r.given
  return r.value

def required (file : Option String) : Except Refusal String :=
  match file with
  | some file => .ok file
  | none => .error .missingArgument

def helpFor : List String → Refusal
  | [] => .help
  | [name] => if name ∈ topGrammar.commands then .help else .unknownCommand
  | _ => .unknownCommand

def readCommand (environment : String → Option String) (name : String) (words : List String) :
    Except Refusal (Command × Globals) := do
  match name with
  | "view" =>
    let d ← readDraft viewGrammar environment "." words
    return (.view d.fields, d.globals)
  | "flatten" =>
    let d ← readDraft flattenGrammar environment {} words
    return (.flatten (← required d.fields.file) d.fields.layout, d.globals)
  | "render" =>
    let d ← readDraft renderGrammar environment {} words
    return (.render (← required d.fields.file) d.fields.picture d.fields.output, d.globals)
  | "check-config" =>
    let d ← readDraft checkConfigGrammar environment () words
    return (.checkConfig, d.globals)
  | _ => .error (helpFor words)

-- The words behind the name of the program. Options behind a command win over those in front of it,
-- and both over the environment.
def Invocation.ofWords (environment : String → Option String) (words : List String) :
    Except Refusal Invocation := do
  let (r, rest) ← topGrammar.scan { value := {} } words
  let command ← match rest with
    | none => pure none
    | some (name, words) => (readCommand environment name words).map some
  let r ← r.settle
  let set ← topGrammar.fromEnvironment environment {} r.given
  let inner := (command.map (·.2)).getD {}
  return { command := command.map (·.1), globals := (inner.or r.value).or set }

end CommandLine

end Waterfall
