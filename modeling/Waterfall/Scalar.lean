import Waterfall.Binary

set_option autoImplicit false

namespace Waterfall

class Scalar (α : Type) extends Add α, Sub α, Mul α, Div α, Neg α, LT α, LE α, BEq α where
  decLt : DecidableLT α
  decLe : DecidableLE α
  ofNat : Nat → α
  ofDecimal : Nat → Bool → Nat → α
  floor : α → α
  finite : α → Bool
  toWord : α → Nat
  -- How many units of `10^-places` are nearest, for a number that is not negative.
  units : Nat → α → Nat
  log10 : α → α
  pow : α → α → α
  epsilon : α

attribute [reducible, instance] Scalar.decLt Scalar.decLe

namespace Scalar

instance (priority := low) {α : Type} [Scalar α] (n : Nat) : OfNat α n := ⟨Scalar.ofNat n⟩

instance (priority := low) {α : Type} [Scalar α] : OfScientific α := ⟨Scalar.ofDecimal⟩

variable {α : Type} [Scalar α]

def ceil (x : α) : α := -floor (-x)

def trunc (x : α) : α :=
  if x < 0 then ceil x else floor x

def round (x : α) : α :=
  let t := trunc x
  if x < 0 then (if t - x < 0.5 then t else t - 1) else (if x - t < 0.5 then t else t + 1)

-- The greater of two; a NaN gives way. Of two equal ones the first is kept.
def max (x y : α) : α :=
  if x == x then (if x < y then y else x) else y

-- The lesser of two; a NaN gives way. Of two equal ones the first is kept.
def min (x y : α) : α :=
  if x == x then (if y < x then y else x) else y

def positive (x : α) : α :=
  if 0 < x then x else 0

def clamp (x low high : α) : α :=
  if x < low then low else if high < x then high else x

def abs (x : α) : α :=
  if x < 0 then -x else x

def toInt (x : α) : Int :=
  if x < 0 then -(Nat.min (toWord (-x)) (Nat.pow 2 63) : Int)
  else Nat.min (toWord x) (Nat.pow 2 63 - 1)

def ofInt (n : Int) : α :=
  if n < 0 then -ofNat n.natAbs else ofNat n.natAbs

end Scalar

namespace Double

-- Numbers of this size and above have no fraction.
def wholeFrom : Float := 4503599627370496.0

-- A zero result keeps the sign of the argument.
def floor (x : Float) : Float :=
  if x.abs < wholeFrom then
    let t := if x < 0.0 then -(-x).toUInt64.toFloat else x.toUInt64.toFloat
    let f := if x < t then t - 1.0 else t
    if f == 0.0 then x * 0.0 else f
  else x

def nearest (n : Nat) : Float :=
  if n < UInt64.size then (UInt64.ofNat n).toFloat else (Binary.finite false n 0).toFloat

def units (places : Nat) (x : Float) : Nat :=
  match Binary.ofFloat x with
  | .finite false m q =>
    Binary.divideToEven (m * Nat.pow 2 q.toNat * Nat.pow 10 places) (Nat.pow 2 (-q).toNat)
  | _ => 0

end Double

instance : Scalar Float where
  decLt := inferInstance
  decLe := inferInstance
  ofNat := Double.nearest
  ofDecimal := Float.ofScientific
  floor := Double.floor
  finite := Float.isFinite
  toWord x := x.toUInt64.toNat
  units := Double.units
  log10 := Float.log10
  pow := Float.pow
  epsilon := 2.220446049250313e-16

end Waterfall
