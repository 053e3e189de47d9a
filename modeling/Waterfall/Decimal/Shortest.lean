import Waterfall.Binary

set_option autoImplicit false

namespace Waterfall

/-- The number `digits · 10^exponent`. -/
structure Decimal where
  digits : Nat
  exponent : Int
  deriving DecidableEq

namespace Decimal

/-- Where a value lies midway between two decimals of the same length. -/
inductive Tie where
  | up
  | even

def digitCount (n : Nat) : Nat :=
  (Nat.toDigits 10 n).length

def magnitude (n d : Nat) : Int :=
  if d ≤ n then digitCount (n / d) else 1 - digitCount ((d - 1) / n)

def exact (m : Nat) (q : Int) : Decimal :=
  if 0 ≤ q then ⟨m * Nat.pow 2 q.toNat, 0⟩ else ⟨m * Nat.pow 5 (-q).toNat, q⟩

def strip : Nat → Decimal → Decimal
  | 0, x => x
  | fuel + 1, x =>
    if x.digits ≠ 0 ∧ x.digits % 10 = 0 then strip fuel ⟨x.digits / 10, x.exponent + 1⟩ else x

/-- The numbers that read back as one binary number, in units of `2^exponent`. -/
structure Interval where
  low : Nat
  value : Nat
  high : Nat
  exponent : Int
  closed : Bool

-- Below a power of two the neighbour is half as far away as above.
def Interval.around (f : Binary.Layout) (m : Nat) (q : Int) : Interval where
  low := if m = Nat.pow 2 f.fraction ∧ f.lowest < q then 4 * m - 1 else 4 * m - 2
  value := 4 * m
  high := 4 * m + 2
  exponent := q - 2
  closed := m % 2 = 0

def scales (b e : Int) : Nat × Nat :=
  (Nat.pow 2 b.toNat * Nat.pow 10 (-e).toNat, Nat.pow 2 (-b).toNat * Nat.pow 10 e.toNat)

def Interval.point (i : Interval) (tie : Tie) (e : Int) : Option Decimal :=
  let (binary, decimal) := scales i.exponent e
  let low := i.low * binary
  let value := i.value * binary
  let high := i.high * binary
  let below := value / decimal
  let holds (n : Nat) : Bool :=
    let x := n * decimal
    if i.closed then low ≤ x && x ≤ high else low < x && x < high
  let belowHolds := below ≠ 0 && holds below
  let aboveHolds := holds (below + 1)
  -- twice the distance from the point below, against one step of the grid
  let rest := 2 * (value - below * decimal)
  let nearerAbove : Bool :=
    if rest = decimal then (match tie with | .up => true | .even => below % 2 = 1)
    else decimal < rest
  if belowHolds && (!aboveHolds || !nearerAbove) then some ⟨below, e⟩
  else if aboveHolds then some ⟨below + 1, e⟩
  else none

-- The fewest digits that read back as `m · 2^q`, and of those the nearest.
def shortest (f : Binary.Layout) (tie : Tie) (m : Nat) (q : Int) : Decimal :=
  if m = 0 then ⟨0, 0⟩
  else
    let i := Interval.around f m q
    let (binary, decimal) := scales i.exponent 0
    let top := magnitude (i.value * binary) decimal
    let found := (List.range 17).findSome? fun n => i.point tie (top - (n + 1 : Nat))
    strip 20 (found.getD (exact m q))

end Decimal

end Waterfall
