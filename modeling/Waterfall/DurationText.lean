import Waterfall.Decimal.Numeral
import Waterfall.Text.Blank

set_option autoImplicit false

namespace Waterfall

namespace DurationText

inductive Unit where
  | nanos (n : Nat)
  | seconds (n : Nat)

def unit? (name : String) : Option Unit :=
  match name with
  | "nanos" | "nsec" | "ns" => some (.nanos 1)
  | "usec" | "us" | "µs" => some (.nanos 1000)
  | "millis" | "msec" | "ms" => some (.nanos 1000000)
  | "seconds" | "second" | "secs" | "sec" | "s" => some (.seconds 1)
  | "minutes" | "minute" | "min" | "mins" | "m" => some (.seconds 60)
  | "hours" | "hour" | "hrs" | "hr" | "h" => some (.seconds 3600)
  | "days" | "day" | "d" => some (.seconds 86400)
  | "weeks" | "week" | "wk" | "wks" | "w" => some (.seconds 604800)
  | "months" | "month" | "M" => some (.seconds 2630016)
  | "years" | "year" | "yr" | "yrs" | "y" => some (.seconds 31557600)
  | _ => none

def word? (n : Nat) : Option Nat :=
  if n < UInt64.size then some n else none

def second : Nat := 1000000000

def whole? (n : Nat) : Unit → Option Nat
  | .nanos k => word? (n * k)
  | .seconds k => (word? (n * k)).map (· * second)

-- The nanoseconds of a fraction of a unit; units above a minute are cut to whole seconds.
def fraction? (f : Nat × Nat) : Unit → Option Nat
  | .nanos k => if k = 1 then none else (word? (f.1 * k)).map (· / f.2)
  | .seconds k =>
    if k ≤ 60 then (word? (f.1 * (k * second))).map (· / f.2)
    else (word? (f.1 * k)).map fun n => n / f.2 * second

def add? (total n : Nat) (f : Option (Nat × Nat)) (name : String) : Option Nat := do
  let unit ← unit? name
  let whole ← whole? n unit
  let fraction ← match f with
    | none => some 0
    | some f => fraction? f unit
  let sum := total + whole + fraction
  if sum / second < UInt64.size then some sum else none

inductive State where
  | start
  | number (n : Nat)
  | fraction (n : Nat) (numerator denominator : Nat)
  | unit (n : Nat) (fraction : Option (Nat × Nat)) (letters : List Char)

def isLetter (c : Char) : Bool :=
  c.isAlpha || c = 'µ'

def read? (total : Nat) : State → List Char → Option Nat
  | .start, [] => some total
  | .number _, [] => none
  | .fraction .., [] => none
  | .unit n f letters, [] => add? total n f (String.ofList letters.reverse)
  | .start, c :: rest =>
    match Numeral.digit? c with
    | some d => read? total (.number d) rest
    | none => if isBlank c then read? total .start rest else none
  | .number n, c :: rest =>
    match Numeral.digit? c with
    | some d =>
      match word? (10 * n + d) with
      | some n => read? total (.number n) rest
      | none => none
    | none =>
      if isBlank c then read? total (.number n) rest
      else if c = '.' then read? total (.fraction n 0 1) rest
      else if isLetter c then read? total (.unit n none [c]) rest
      else none
  | .fraction n num den, c :: rest =>
    match Numeral.digit? c with
    | some d =>
      match word? (10 * num + d), word? (10 * den) with
      | some num, some den => read? total (.fraction n num den) rest
      | _, _ => none
    | none =>
      if isBlank c then read? total (.fraction n num den) rest
      else if isLetter c ∧ den ≠ 1 then read? total (.unit n (some (num, den)) [c]) rest
      else none
  | .unit n f letters, c :: rest =>
    if isLetter c then read? total (.unit n f (c :: letters)) rest
    else
      match add? total n f (String.ofList letters.reverse) with
      | none => none
      | some total =>
        match Numeral.digit? c with
        | some d => read? total (.number d) rest
        | none => if isBlank c then read? total .start rest else none

def parse? (s : String) : Option Nat :=
  if s = "0" then some 0
  else if s.toList.all isBlank then none
  else read? 0 .start s.toList

def item (n : Nat) (name : String) : List String :=
  if n = 0 then [] else [toString n ++ name]

def plural (n : Nat) (name : String) : List String :=
  if n ≤ 1 then item n name else item n (name ++ "s")

def write (nanos : Nat) : String :=
  let seconds := nanos / second
  let rest := nanos % second
  let inYear := seconds % 31557600
  let inMonth := inYear % 2630016
  let inDay := inMonth % 86400
  let items :=
    plural (seconds / 31557600) "year" ++ plural (inYear / 2630016) "month"
      ++ plural (inMonth / 86400) "day" ++ item (inDay / 3600) "h" ++ item (inDay % 3600 / 60) "m"
      ++ item (inDay % 60) "s" ++ item (rest / 1000000) "ms" ++ item (rest / 1000 % 1000) "us"
      ++ item (rest % 1000) "ns"
  if items.isEmpty then "0s" else " ".intercalate items

def dropZeros (cs : List Char) : List Char :=
  (cs.reverse.dropWhile (· = '0')).reverse

def decimal (n places : Nat) : String :=
  let fraction := dropZeros ((Decimal.point n places).toList.reverse.take places).reverse
  if fraction.isEmpty then toString (n / Nat.pow 10 places)
  else toString (n / Nat.pow 10 places) ++ "." ++ String.ofList fraction

def brief (nanos : Nat) : String :=
  if second ≤ nanos then decimal nanos 9 ++ "s"
  else if 1000000 ≤ nanos then decimal nanos 6 ++ "ms"
  else if 1000 ≤ nanos then decimal nanos 3 ++ "µs"
  else toString nanos ++ "ns"

end DurationText

end Waterfall
