import Waterfall.Scalar
import Waterfall.Text.Blank
import Waterfall.Decimal.Numeral
import Waterfall.Json.Number

set_option autoImplicit false

namespace Waterfall

namespace Lenient

def payload : Option Json → Option Json
  | some .null => none
  | v => v

def text? : Option Json → Option (Option String)
  | none => some none
  | some .null => some none
  | some (.string s) => some (some s)
  | _ => none

def name? : Option Json → Option String
  | none => some ""
  | some .null => some ""
  | some (.string s) => some s
  | _ => none

def flag? : Option Json → Option Bool
  | none => some false
  | some .null => some false
  | some (.bool b) => some b
  | _ => none

def list? {α : Type} (item : Json → Option α) : Option Json → Option (List α)
  | none => some []
  | some .null => some []
  | some (.array items) => items.mapM item
  | _ => none

def texts? : Option Json → Option (List String) :=
  list? Json.string?

def record? {α : Type} (read : Json → Option α) : Option Json → Option (Option α)
  | none => some none
  | some .null => some none
  | some v => (read v).map some

-- A number or a numeral in text; fractions of a nanosecond are cut, and so is what is past the
-- largest word.
def nanos : Option Json → UInt64
  | some (.int n) =>
    if n < 0 then 0 else if n ≤ (Json.wordMax : Int) then .ofNat n.toNat
    else .ofNat Json.wordMax
  | some (.float x) => if x.isFinite ∧ 0.0 < x then x.toUInt64 else 0
  | some (.string s) => .ofNat ((natOfText? Json.wordMax (trim s)).getD 0)
  | _ => 0

def number (v : Option Json) : Option Float :=
  let read : Option Float := match v with
    | some (.int n) => some (Scalar.ofInt n)
    | some (.float x) => some x
    | some (.string s) => floatOfText? (trim s)
    | _ => none
  read.filter Float.isFinite

def count (v : Option Json) : Option UInt64 :=
  ((number v).filter (0.0 ≤ ·)).map fun x => (Scalar.round x).toUInt64

def code (v : Option Json) : Option Int :=
  ((number v).filter fun x => Scalar.trunc x == x && -2147483648.0 ≤ x && x ≤ 2147483647.0).map
    Scalar.toInt

end Lenient

end Waterfall
