import Waterfall.Decimal.Numeral

set_option autoImplicit false

namespace Waterfall

namespace CommandLine

/-- Why words are not a command, or what they ask for in its place. -/
inductive Refusal where
  | unknownOption
  | unknownCommand
  | invalidValue
  | malformedValue
  | valueForFlag
  | repeated
  | missingArgument
  | help
  | version
  deriving DecidableEq

inductive Effect (σ : Type) where
  | flag (set : Bool → σ → σ)
  | value (read : String → Except Refusal (σ → σ))
  | ask (refusal : Refusal)

/-- An option by its long name, or an argument by its place. -/
structure Parameter (σ : Type) where
  name : String
  letter : Option Char := none
  setting? : Option String := none
  effect : Effect σ

structure Grammar (σ : Type) where
  options : List (Parameter σ)
  arguments : List (Parameter σ) := []
  commands : List String := []

structure Reading (σ : Type) where
  value : σ
  given : List String := []
  -- The last parameter, whose value has not been looked at or is still to come.
  pending : Option (Parameter σ × Option String) := none
  placed : Nat := 0
  argumentsOnly : Bool := false

variable {σ : Type}

def Parameter.isFlag (p : Parameter σ) : Bool :=
  match p.effect with
  | .value _ => false
  | _ => true

def flagValue? : String → Option Bool
  | "true" => some true
  | "false" => some false
  | _ => none

namespace Reading

def awaitsValue (r : Reading σ) : Bool :=
  r.pending.any fun (_, value) => value.isNone

def give (r : Reading σ) (p : Parameter σ) (value : Option String) :
    Except Refusal (Reading σ) :=
  match p.effect, value with
  | .ask refusal, _ => .error refusal
  | .value _, none => .error .invalidValue
  | .flag set, _ =>
    if p.name ∈ r.given then .error .repeated
    else .ok { r with given := p.name :: r.given, value := set true r.value }
  | .value read, some text =>
    if p.name ∈ r.given then .error .repeated
    else (read text).map fun set => { r with given := p.name :: r.given, value := set r.value }

def settle (r : Reading σ) : Except Refusal (Reading σ) :=
  match r.pending with
  | none => .ok r
  | some (p, value) => { r with pending := none }.give p value

def take (r : Reading σ) (p : Parameter σ) (value : Option String) :
    Except Refusal (Reading σ) := do
  let r ← r.settle
  if p.isFlag ∨ value.isSome then r.give p value else .ok { r with pending := some (p, none) }

end Reading

namespace Grammar

variable (g : Grammar σ)

def long (r : Reading σ) (cs : List Char) : Except Refusal (Reading σ) :=
  let name := String.ofList (cs.takeWhile (· ≠ '='))
  let value := (cs.dropWhile (· ≠ '=')).tail?.map String.ofList
  match g.options.find? (·.name = name) with
  | none => .error .unknownOption
  | some p => if p.isFlag ∧ value.isSome then .error .valueForFlag else r.take p value

-- Letters behind one dash: flags, and at the end an option with what follows as its value.
def short (r : Reading σ) : List Char → Except Refusal (Reading σ)
  | [] => .ok r
  | c :: rest =>
    match g.options.find? (·.letter = some c) with
    | none => .error .unknownOption
    | some p =>
      if p.isFlag then
        match r.take p none with
        | .ok r => short r rest
        | .error e => .error e
      else
        match rest with
        | [] => r.take p none
        | '=' :: value => r.take p (some (String.ofList value))
        | value => r.take p (some (String.ofList value))

def argument (r : Reading σ) (word : String) : Except Refusal (Reading σ) :=
  match g.arguments[r.placed]? with
  | some p =>
    r.settle.map fun r => { r with placed := r.placed + 1, pending := some (p, some word) }
  | none =>
    if g.commands.isEmpty ∨ (r.argumentsOnly ∧ word ∈ g.commands) then .error .unknownOption
    else .error .unknownCommand

def word (r : Reading σ) (word : String) : Except Refusal (Reading σ) :=
  if r.argumentsOnly then g.argument r word
  else
    match word.toList with
    | ['-', '-'] => .ok { r with argumentsOnly := true }
    | '-' :: '-' :: cs => g.long r cs
    | '-' :: c :: cs => g.short r (c :: cs)
    | _ =>
      match r.pending with
      | some (p, none) => .ok { r with pending := some (p, some word) }
      | _ => g.argument r word

def scan (r : Reading σ) : List String → Except Refusal (Reading σ × Option (String × List String))
  | [] => .ok (r, none)
  | w :: rest =>
    if !r.argumentsOnly ∧ !r.awaitsValue ∧ w ∈ g.commands then .ok (r, some (w, rest))
    else
      match g.word r w with
      | .ok r => scan r rest
      | .error e => .error e

def withVariable (environment : String → Option String) (r : Reading σ) (p : Parameter σ) :
    Except Refusal (Reading σ) :=
  match p.setting?.bind environment with
  | none => .ok r
  | some text =>
    if p.name ∈ r.given then .ok r
    else
      match p.effect with
      | .flag set =>
        match flagValue? text with
        | some b => .ok { r with value := set b r.value }
        | none => .error .invalidValue
      | .value read => (read text).map fun set => { r with value := set r.value }
      | .ask _ => .ok r

def fromEnvironment (environment : String → Option String) (start : σ) (given : List String) :
    Except Refusal σ :=
  (g.options.foldlM (withVariable environment) { value := start, given := given }).map (·.value)

end Grammar

def textValue {α : Type} (set : α → σ → σ) (read : String → Except Refusal α) : Effect σ :=
  .value fun s => (read s).map set

def anyText (s : String) : Except Refusal String := .ok s

def pathText (s : String) : Except Refusal String :=
  if s = "" then .error .invalidValue else .ok s

def natText (limit : Nat) (s : String) : Except Refusal Nat :=
  match natOfText? limit s with
  | some n => .ok n
  | none => .error .malformedValue

def numberText (s : String) : Except Refusal Float :=
  match floatOfText? s with
  | some x => .ok x
  | none => .error .malformedValue

end CommandLine

end Waterfall
