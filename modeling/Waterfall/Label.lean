import Waterfall.Decimal.Text
import Waterfall.Scalar

set_option autoImplicit false

namespace Waterfall

namespace Label

def sum? (a b : UInt64) : Option UInt64 :=
  if a.toNat + b.toNat < UInt64.size then some (a + b) else none

-- There is no label where rounding leaves the 64 bits.
def duration? (micros : UInt64) : Option String :=
  if micros < 1000 then some (toString micros ++ "µs")
  else do
    let tenths := (← sum? micros 50) / 100
    if tenths < 100 then
      return toString (tenths / 10) ++ "." ++ toString (tenths % 10) ++ "ms"
    else
      return toString ((← sum? micros 500) / 1000) ++ "ms"

def duration (micros : UInt64) : String :=
  (duration? micros).getD ""

variable {α : Type} [Scalar α]

def decimals (places : Nat) (x : α) : String :=
  if Scalar.finite x then Decimal.point (Scalar.units places x) places else "inf"

def tickPlaces (stepMs : α) : Nat :=
  if 1 ≤ stepMs then 0
  else Nat.min (Scalar.toWord (Scalar.ceil (-Scalar.log10 stepMs - 1e-9))) 3

def tick (micros step : α) : String :=
  let value := Scalar.positive micros
  if step < 100 then decimals 0 value ++ "µs"
  else decimals (tickPlaces (step / 1000)) (value / 1000) ++ "ms"

end Label

def truncate (s : String) (limit : Nat) : String :=
  let cs := s.toList
  if cs.length ≤ limit then s
  else if limit = 0 then ""
  else String.ofList (cs.take (limit - 1) ++ ['…'])

end Waterfall
