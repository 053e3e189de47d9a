import Waterfall.Decimal.Numeral
import Waterfall.Yaml.Basic

set_option autoImplicit false

namespace Waterfall

namespace Yaml

-- Infinities and NaN have names of their own; a text that only overflows is no number.
def floatOfPlain? (s : String) : Option Float :=
  let unsigned := match s.toList with
    | '+' :: '+' :: _ => none
    | '+' :: '-' :: _ => none
    | '+' :: rest => some (String.ofList rest)
    | _ => some s
  match unsigned with
  | none => none
  | some u =>
    if u ∈ [".inf", ".Inf", ".INF"] then some (1.0 / 0.0)
    else if s ∈ ["-.inf", "-.Inf", "-.INF"] then some (-1.0 / 0.0)
    else if s ∈ [".nan", ".NaN", ".NAN"] then some (0.0 / 0.0)
    else (floatOfText? u).filter Float.isFinite

def float? (y : Yaml) : Option Float :=
  y.plainText?.bind floatOfPlain?

def digitOf? (radix : Nat) (c : Char) : Option Nat :=
  let value :=
    if '0' ≤ c ∧ c ≤ '9' then c.toNat - '0'.toNat
    else if 'a' ≤ c ∧ c ≤ 'z' then c.toNat - 'a'.toNat + 10
    else if 'A' ≤ c ∧ c ≤ 'Z' then c.toNat - 'A'.toNat + 10
    else radix
  if value < radix then some value else none

def natOfRadix? (radix : Nat) (cs : List Char) : Option Nat :=
  if cs.isEmpty then none
  else (cs.mapM (digitOf? radix)).map fun ds => ds.foldl (fun n d => radix * n + d) 0

-- Digits with zeros in front of them are text.
def paddedDigits (cs : List Char) : Bool :=
  match cs with
  | '0' :: rest => !rest.isEmpty && rest.all Char.isDigit
  | _ => false

def natOfPlain? (s : String) : Option Nat :=
  let cs := match s.toList with
    | '+' :: rest => rest
    | cs => cs
  match cs with
  | '0' :: 'x' :: rest => natOfRadix? 16 rest
  | '0' :: 'o' :: rest => natOfRadix? 8 rest
  | '0' :: 'b' :: rest => natOfRadix? 2 rest
  | cs => if paddedDigits cs then none else natOfRadix? 10 cs

def nat? (limit : Nat) (y : Yaml) : Option Nat :=
  (y.plainText?.bind natOfPlain?).filter (· ≤ limit)

end Yaml

end Waterfall
