import Waterfall.Decimal.Numeral
import Waterfall.Json.Basic

set_option autoImplicit false

namespace Waterfall

namespace Json

def wordMax : Nat := UInt64.size - 1

/-- Leading digits gathered into one word, and the power of ten that is missing. -/
structure Gathered where
  word : Nat
  exponent : Int
  full : Bool

-- Once a digit of the whole part does not fit, the rest of that part only counts.
def gatherWhole (ds : List Nat) : Gathered :=
  ds.foldl
    (fun g d =>
      if g.full ∨ wordMax < g.word * 10 + d then ⟨g.word, g.exponent + 1, true⟩
      else ⟨g.word * 10 + d, g.exponent, false⟩)
    ⟨0, 0, false⟩

-- Once a digit after the point does not fit, the rest is dropped.
def gatherFraction (word : Nat) (exponent : Int) (ds : List Nat) : Gathered :=
  ds.foldl
    (fun g d =>
      if g.full ∨ wordMax < g.word * 10 + d then ⟨g.word, g.exponent, true⟩
      else ⟨g.word * 10 + d, g.exponent - 1, false⟩)
    ⟨word, exponent, false⟩

def pow10 (n : Nat) : Float :=
  Float.ofScientific 1 false n

def scale (word : Nat) (exponent : Int) : Option Float :=
  let x := (UInt64.ofNat word).toFloat
  let places := exponent.natAbs
  if 0 ≤ exponent then
    if places ≤ 308 then
      let y := x * pow10 places
      if y.isInf then none else some y
    else if word = 0 then some 0.0
    else none
  else if places ≤ 308 then some (x / pow10 places)
  else if places ≤ 616 then some (x / pow10 308 / pow10 (places - 308))
  else some 0.0

def exponentMax : Nat := Nat.pow 2 31 - 1

def writtenExponent : Option (Bool × List Nat) → Option Int
  | none => some 0
  | some (negative, ds) =>
    let n := Numeral.ofDigits ds
    if exponentMax < n then none else some (if negative then -n else n)

def ofNumeral (n : Numeral) : Option Json :=
  let signed (x : Float) : Json := .float (if n.negative then -x else x)
  let whole := gatherWhole n.whole
  if n.fraction.isNone ∧ n.exponent.isNone ∧ ¬ whole.full ∧
      ¬ (n.negative ∧ (whole.word = 0 ∨ Nat.pow 2 63 < whole.word)) then
    some (.int (if n.negative then -whole.word else whole.word))
  else
    let g := gatherFraction whole.word whole.exponent (n.fraction.getD [])
    match writtenExponent n.exponent with
    | some e => (scale g.word (g.exponent + e)).map signed
    | none =>
      if g.word ≠ 0 ∧ ¬ (n.exponent.any (·.1)) then none else some (signed 0.0)

def numeralOf? (cs : List Char) : Option Numeral :=
  match cs with
  | '-' :: rest => Numeral.parts true rest
  | cs => Numeral.parts false cs

def numberOf? (cs : List Char) : Option Json :=
  (numeralOf? cs).bind ofNumeral

def exponentOverflows (cs : List Char) : Bool :=
  match numeralOf? cs with
  | none => false
  | some n =>
    let whole := gatherWhole n.whole
    let g := gatherFraction whole.word whole.exponent (n.fraction.getD [])
    (writtenExponent n.exponent).isNone && g.word ≠ 0 && !(n.exponent.any (·.1))

end Json

end Waterfall
