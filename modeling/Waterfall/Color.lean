import Waterfall.Text.Blank
import Waterfall.Text.Quoted

set_option autoImplicit false

namespace Waterfall

structure Color where
  red : UInt8
  green : UInt8
  blue : UInt8
  deriving DecidableEq, Inhabited

namespace Color

def ofHex (n : Nat) : Color :=
  ⟨.ofNat (n / 0x10000), .ofNat (n / 0x100), .ofNat n⟩

def hexDigit (n : Nat) : Char :=
  (Nat.toDigits 16 (n % 16)).getLastD '0'

def channelText (n : UInt8) : List Char :=
  [hexDigit (n.toNat / 16), hexDigit n.toNat]

def toString (c : Color) : String :=
  String.ofList ('#' :: (channelText c.red ++ channelText c.green ++ channelText c.blue))

instance : ToString Color := ⟨toString⟩

def digit? (c : Char) : Option Nat :=
  if '0' ≤ c ∧ c ≤ '9' then some (c.toNat - '0'.toNat)
  else if 'a' ≤ c ∧ c ≤ 'f' then some (c.toNat - 'a'.toNat + 10)
  else if 'A' ≤ c ∧ c ≤ 'F' then some (c.toNat - 'A'.toNat + 10)
  else none

def channel? (a b : Char) : Option UInt8 :=
  if a = '+' then (digit? b).map .ofNat
  else
    match digit? a, digit? b with
    | some x, some y => some (.ofNat (16 * x + y))
    | _, _ => none

inductive Fault where
  | length (text : String)
  | digit (text : String)

def Fault.message : Fault → String
  | .length text => "expected #rrggbb, got " ++ quoted text
  | .digit text => "invalid color " ++ quoted text ++ ": invalid digit found in string"

def digits (s : String) : List Char :=
  (trimChars s.toList).dropWhile (· = '#')

def ofText (s : String) : Except Fault Color :=
  match digits s with
  | [a, b, c, d, e, f] =>
    if [a, b, c, d, e, f].all (·.toNat < 128) then
      match channel? a b, channel? c d, channel? e f with
      | some red, some green, some blue => .ok ⟨red, green, blue⟩
      | _, _, _ => .error (.digit s)
    else .error (.length s)
  | _ => .error (.length s)

def ofText? (s : String) : Option Color :=
  (ofText s).toOption

def nearest (x : Float32) : UInt8 :=
  let whole := x.toUInt8
  if 0.5 ≤ x - whole.toFloat32 then whole + 1 else whole

def blend (t : Float32) (a b : UInt8) : UInt8 :=
  nearest (a.toFloat32 + (b.toFloat32 - a.toFloat32) * t)

def mix (a b : Color) (t : Float32) : Color :=
  let t := if t < 0.0 then 0.0 else if 1.0 < t then 1.0 else t
  ⟨blend t a.red b.red, blend t a.green b.green, blend t a.blue b.blue⟩

end Color

end Waterfall
