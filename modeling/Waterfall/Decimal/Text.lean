import Waterfall.Decimal.Shortest

set_option autoImplicit false

namespace Waterfall

namespace Decimal

def zeros (n : Nat) : String :=
  String.ofList (List.replicate n '0')

structure Style where
  -- Positional when the point stands more than `low` and at most `high` digits after the first.
  low : Option Int
  high : Option Int
  wholeMark : String
  tie : Tie

namespace Style

def plain : Style := ⟨none, none, "", .up⟩

def json : Style := ⟨some (-5), some 16, ".0", .even⟩

def jsonSingle : Style := ⟨some (-6), some 13, ".0", .even⟩

def positional (style : Style) (point : Int) : Bool :=
  style.low.all (· < point) && style.high.all (point ≤ ·)

def layout (style : Style) (x : Decimal) : String :=
  let ds := toString x.digits
  let point : Int := x.exponent + ds.length
  if x.digits = 0 then "0" ++ style.wholeMark
  else if style.positional point then
    if 0 ≤ x.exponent then ds ++ zeros x.exponent.toNat ++ style.wholeMark
    else if 0 < point then
      String.ofList (ds.toList.take point.toNat) ++ "." ++ String.ofList (ds.toList.drop point.toNat)
    else "0." ++ zeros (-point).toNat ++ ds
  else
    let first := String.ofList (ds.toList.take 1)
    let rest := String.ofList (ds.toList.drop 1)
    (if rest = "" then first else first ++ "." ++ rest) ++ "e" ++ toString (point - 1)

def write (style : Style) (f : Binary.Layout) : Binary → String
  | .nan => "NaN"
  | .infinite negative => if negative then "-inf" else "inf"
  | .finite negative m q =>
    (if negative then "-" else "") ++ style.layout (shortest f style.tie m q)

end Style

def point (n places : Nat) : String :=
  if places = 0 then toString n
  else
    let ds := toString n
    let ds := zeros (places + 1 - ds.length) ++ ds
    let whole := ds.length - places
    String.ofList (ds.toList.take whole) ++ "." ++ String.ofList (ds.toList.drop whole)

end Decimal

def floatText (x : Float) : String :=
  Decimal.Style.plain.write .double (.ofFloat x)

def float32Text (x : Float32) : String :=
  Decimal.Style.plain.write .single (.ofFloat32 x)

end Waterfall
