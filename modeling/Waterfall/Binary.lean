set_option autoImplicit false

namespace Waterfall

/-- Bits kept after the leading one, and bits of the exponent field. -/
structure Binary.Layout where
  fraction : Nat
  exponent : Nat

namespace Binary.Layout

def double : Layout := ⟨52, 11⟩
def single : Layout := ⟨23, 8⟩

-- Exponent of the last bit of the smallest numbers.
def lowest (f : Layout) : Int :=
  2 - (Nat.pow 2 (f.exponent - 1) : Int) - f.fraction

end Binary.Layout

/-- What a word stands for; a finite number is `m · 2^q`. -/
inductive Binary where
  | nan
  | infinite (negative : Bool)
  | finite (negative : Bool) (m : Nat) (q : Int)

namespace Binary

def ofWord (f : Layout) (word : Nat) : Binary :=
  let negative := word / Nat.pow 2 (f.fraction + f.exponent) % 2 = 1
  let biased := word / Nat.pow 2 f.fraction % Nat.pow 2 f.exponent
  let fraction := word % Nat.pow 2 f.fraction
  if biased = Nat.pow 2 f.exponent - 1 then
    if fraction = 0 then .infinite negative else .nan
  else if biased = 0 then
    .finite negative fraction f.lowest
  else
    .finite negative (fraction + Nat.pow 2 f.fraction) (f.lowest + (biased - 1 : Nat))

-- `n / d` to the nearest whole number, a half to the even neighbour.
def divideToEven (n d : Nat) : Nat :=
  let whole := n / d
  let rest := 2 * (n % d)
  if rest < d then whole
  else if d < rest then whole + 1
  else whole + whole % 2

def word (f : Layout) (negative : Bool) (m : Nat) (q : Int) : Nat :=
  let sign := if negative then Nat.pow 2 (f.fraction + f.exponent) else 0
  let largest := (Nat.pow 2 f.exponent - 1) * Nat.pow 2 f.fraction
  if m = 0 then sign
  else
    -- the exponent of the last bit kept
    let last := max f.lowest (q + m.log2 - f.fraction)
    let kept :=
      if last ≤ q then m * Nat.pow 2 (q - last).toNat
      else divideToEven m (Nat.pow 2 (last - q).toNat)
    -- a carry out of the fraction moves into the exponent field by itself
    sign + min largest ((last - f.lowest).toNat * Nat.pow 2 f.fraction + kept)

def ofFloat (x : Float) : Binary :=
  ofWord .double x.toBits.toNat

def ofFloat32 (x : Float32) : Binary :=
  ofWord .single x.toBits.toNat

def toFloat : Binary → Float
  | .nan => .ofBits 0x7ff8000000000000
  | .infinite negative => if negative then -(1.0 / 0.0) else 1.0 / 0.0
  | .finite negative m q => .ofBits (.ofNat (word .double negative m q))

def toFloat32 : Binary → Float32
  | .nan => .ofBits 0x7fc00000
  | .infinite negative => if negative then -(1.0 / 0.0) else 1.0 / 0.0
  | .finite negative m q => .ofBits (.ofNat (word .single negative m q))

end Binary

-- The `e` with `2^e ≤ n / d < 2^(e+1)`, for positive `n` and `d`.
def Binary.log2Quotient (n d : Nat) : Int :=
  if d ≤ n then (n / d).log2 else -((d - 1) / n).log2 - 1

structure Dyadic where
  m : Nat
  q : Int
  deriving DecidableEq

namespace Dyadic

def nearest (n d : Nat) : Dyadic :=
  if n = 0 then ⟨0, 0⟩
  else
    let last := Binary.log2Quotient n d - 52
    ⟨Binary.divideToEven (n * Nat.pow 2 (-last).toNat) (d * Nat.pow 2 last.toNat), last⟩

def num (x : Dyadic) : Nat := x.m * Nat.pow 2 x.q.toNat

def den (x : Dyadic) : Nat := Nat.pow 2 (-x.q).toNat

def scale (x : Dyadic) (n d : Nat) : Dyadic :=
  nearest (x.num * n) (x.den * d)

def floor (x : Dyadic) : Nat :=
  x.num / x.den

def round (x : Dyadic) : Nat :=
  (2 * x.num + x.den) / (2 * x.den)

end Dyadic

def Binary.narrow (x : Float) : Float32 :=
  (ofFloat x).toFloat32

def Binary.widen (x : Float32) : Float :=
  (ofFloat32 x).toFloat

end Waterfall
