import Waterfall.Decimal.Text

set_option autoImplicit false

namespace Waterfall

structure Numeral where
  negative : Bool
  whole : List Nat
  fraction : Option (List Nat)
  exponent : Option (Bool × List Nat)

namespace Numeral

def digit? (c : Char) : Option Nat :=
  if '0' ≤ c ∧ c ≤ '9' then some (c.toNat - '0'.toNat) else none

def ofDigits (ds : List Nat) : Nat :=
  ds.foldl (fun n d => 10 * n + d) 0

def digits : List Char → List Nat × List Char
  | [] => ([], [])
  | c :: rest =>
    match digit? c with
    | some d => ((d :: (digits rest).1), (digits rest).2)
    | none => ([], c :: rest)

def natOf? (cs : List Char) : Option Nat :=
  match digits cs with
  | ([], _) => none
  | (ds, []) => some (ofDigits ds)
  | _ => none

def sign : List Char → Bool × List Char
  | '-' :: rest => (true, rest)
  | '+' :: rest => (false, rest)
  | rest => (false, rest)

def fractionOf : List Char → Option (List Nat) × List Char
  | '.' :: rest => (some (digits rest).1, (digits rest).2)
  | rest => (none, rest)

def exponentOf : List Char → Option (Option (Bool × List Nat))
  | [] => some none
  | c :: rest =>
    if c = 'e' ∨ c = 'E' then
      let (negative, rest) := sign rest
      match digits rest with
      | ([], _) => none
      | (ds, []) => some (some (negative, ds))
      | _ => none
    else none

def parts (negative : Bool) (cs : List Char) : Option Numeral :=
  let (whole, rest) := digits cs
  let (fraction, rest) := fractionOf rest
  (exponentOf rest).map fun exponent => ⟨negative, whole, fraction, exponent⟩

def decimal (n : Numeral) : Decimal :=
  let fraction := n.fraction.getD []
  let shift : Int :=
    match n.exponent with
    | none => 0
    | some (negative, ds) => if negative then -(ofDigits ds : Int) else ofDigits ds
  ⟨ofDigits (n.whole ++ fraction), shift - fraction.length⟩

-- The nearest double; beyond four hundred places it is zero or infinite.
def toFloat (n : Numeral) : Float :=
  let x := n.decimal
  let point : Int := x.exponent + Decimal.digitCount x.digits
  let size :=
    if x.digits = 0 ∨ point < -400 then 0.0
    else if 400 < point then 1.0 / 0.0
    else Float.ofScientific x.digits (x.exponent < 0) x.exponent.natAbs
  if n.negative then -size else size

end Numeral

def lower (cs : List Char) : List Char :=
  cs.map Char.toLower

def floatOfText? (s : String) : Option Float :=
  let (negative, cs) := Numeral.sign s.toList
  let signed (x : Float) : Float := if negative then -x else x
  if lower cs = "nan".toList then some (signed (0.0 / 0.0))
  else if lower cs = "inf".toList ∨ lower cs = "infinity".toList then some (signed (1.0 / 0.0))
  else
    match Numeral.parts negative cs with
    | some n => if n.whole = [] ∧ n.fraction.getD [] = [] then none else some n.toFloat
    | none => none

def natOfText? (limit : Nat) (s : String) : Option Nat :=
  let cs := match s.toList with
    | '+' :: rest => rest
    | cs => cs
  (Numeral.natOf? cs).filter (· ≤ limit)

end Waterfall
