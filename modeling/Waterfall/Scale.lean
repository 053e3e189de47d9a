import Waterfall.Scalar

set_option autoImplicit false

namespace Waterfall

variable {α : Type} [Scalar α]

structure Scale (α : Type) where
  domain : α × α
  range : α × α

/-- The ticks of an axis and the distance between them, zero when there is no good distance. -/
structure Ticks (α : Type) where
  values : List α
  step : α

namespace Scale

def apply (s : Scale α) (micros : α) : α :=
  if s.domain.2 == s.domain.1 then s.range.1
  else
    s.range.1 + (micros - s.domain.1) / (s.domain.2 - s.domain.1) * (s.range.2 - s.range.1)

def invert (s : Scale α) (position : α) : α :=
  if s.range.2 == s.range.1 then s.domain.1
  else
    s.domain.1 + (position - s.range.1) / (s.range.2 - s.range.1) * (s.domain.2 - s.domain.1)

def niceFactors : List α := [1, 2, 5, 10]

def niceStep (span : α) (count : Nat) : α :=
  if span ≤ 0 ∨ Scalar.finite span = false then 0
  else
    let rough := span / Scalar.ofNat count
    let power := Scalar.pow 10 (Scalar.floor (Scalar.log10 rough))
    let fraction := rough / power
    let nice := (niceFactors.find? fun f => fraction - 1e-9 ≤ f).getD 10
    Scalar.max (nice * power) 1

def wholeNumbers (first last : Int) : List Int :=
  (List.range (last - first + 1).toNat).map fun (k : Nat) => first + (k : Int)

def ticks (s : Scale α) (count : Nat) : Ticks α :=
  let (low, high) := if s.domain.1 ≤ s.domain.2 then s.domain else (s.domain.2, s.domain.1)
  let step := niceStep (high - low) (Nat.max count 1)
  if step ≤ 0 ∨ Scalar.finite step = false then ⟨[low], 0⟩
  else
    let first := Scalar.toInt (Scalar.ceil (low / step))
    let last := Scalar.toInt (Scalar.floor (high / step))
    ⟨(wholeNumbers first last).map fun i => Scalar.ofInt i * step, step⟩

def minWindow : α := 1000

def base (extent : UInt64) (left right : α) : Scale α where
  domain := (0, Scalar.max (Scalar.ofNat extent.toNat) minWindow)
  range := (left, Scalar.max right (left + 1))

end Scale

end Waterfall
