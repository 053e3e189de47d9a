import Waterfall.Binary
import Waterfall.Proofs.Double.Order

set_option autoImplicit false

namespace Waterfall

namespace Double

open Float.Model (Format UnpackedFloat)
open Float.Model.UnpackedFloat (Sign unpackSign unpackExponent unpackMantissa)

def negative : Sign → Bool
  | .positive => false
  | .negative => true

def binary : UnpackedFloat → Binary
  | .notANumber => .nan
  | .infinity s => .infinite (negative s)
  | .zero s => .finite (negative s) 0 (-1074)
  | .finite s m e _ => .finite (negative s) m e

theorem toNat_unpackMantissa (w : BitVec 64) :
    (@unpackMantissa .binary64 w).toNat = w.toNat % 2 ^ 52 := by
  change (w.toNat >>> 0) % 2 ^ 52 = _
  rw [Nat.shiftRight_zero]

theorem toNat_unpackExponent (w : BitVec 64) :
    (@unpackExponent .binary64 w).toNat = w.toNat / 2 ^ 52 % 2 ^ 11 := by
  change (w.toNat >>> 52) % 2 ^ 11 = _
  rw [Nat.shiftRight_eq_div_pow]

theorem negative_unpackSign (w : BitVec 64) :
    negative (.ofBitVec (@unpackSign .binary64 w)) = decide (w.toNat / 2 ^ 63 % 2 = 1) := by
  have bit : (@unpackSign .binary64 w).toNat = w.toNat / 2 ^ 63 % 2 := by
    change (w.toNat >>> 63) % 2 ^ 1 = _
    rw [Nat.shiftRight_eq_div_pow, Nat.pow_one]
  obtain zero | one := Nat.mod_two_eq_zero_or_one (w.toNat / 2 ^ 63)
  · have same : @unpackSign .binary64 w = 0#1 := BitVec.eq_of_toNat_eq (bit.trans zero)
    rw [same, zero]
    rfl
  · have same : @unpackSign .binary64 w = 1#1 := BitVec.eq_of_toNat_eq (bit.trans one)
    rw [same, one]
    rfl

theorem ofWord_double (w : ℕ) :
    Binary.ofWord .double w =
      if w / 2 ^ 52 % 2 ^ 11 = 2047 then
        if w % 2 ^ 52 = 0 then .infinite (w / 2 ^ 63 % 2 = 1) else .nan
      else if w / 2 ^ 52 % 2 ^ 11 = 0 then .finite (w / 2 ^ 63 % 2 = 1) (w % 2 ^ 52) (-1074)
      else .finite (w / 2 ^ 63 % 2 = 1) (2 ^ 52 + w % 2 ^ 52) ((w / 2 ^ 52 % 2 ^ 11 : ℕ) - 1075) := by
  change (if w / 2 ^ 52 % 2 ^ 11 = 2047 then
        if w % 2 ^ 52 = 0 then Binary.infinite (w / 2 ^ 63 % 2 = 1) else .nan
      else if w / 2 ^ 52 % 2 ^ 11 = 0 then .finite (w / 2 ^ 63 % 2 = 1) (w % 2 ^ 52) (-1074)
      else .finite (w / 2 ^ 63 % 2 = 1) (w % 2 ^ 52 + 2 ^ 52)
        (-1074 + (w / 2 ^ 52 % 2 ^ 11 - 1 : ℕ))) = _
  by_cases bottom : w / 2 ^ 52 % 2 ^ 11 = 0
  · rw [if_pos bottom, if_pos bottom]
  · have exponent : (-1074 + (w / 2 ^ 52 % 2 ^ 11 - 1 : ℕ) : ℤ) = (w / 2 ^ 52 % 2 ^ 11 : ℕ) - 1075 := by
      omega
    rw [if_neg bottom, if_neg bottom, exponent, Nat.add_comm (w % 2 ^ 52)]

theorem ofFloat_eq (x : Float) : Binary.ofFloat x = binary x.toModel.unpack := by
  change Binary.ofWord .double x.toModel.toBits.toBitVec.toNat =
    binary (UnpackedFloat.unpack .binary64 x.toModel.toBits.toBitVec)
  generalize x.toModel.toBits.toBitVec = w
  have exponent := toNat_unpackExponent w
  have fraction := toNat_unpackMantissa w
  rw [ofWord_double, ← negative_unpackSign, ← exponent, ← fraction]
  unfold UnpackedFloat.unpack
  dsimp only
  rw [exponentBias_binary64]
  have ones : (@unpackExponent .binary64 w).toNat = 2047 ↔ @unpackExponent .binary64 w = -1#11 :=
    ⟨fun h => BitVec.eq_of_toNat_eq h, congrArg BitVec.toNat⟩
  have zeros : (@unpackExponent .binary64 w).toNat = 0 ↔ @unpackExponent .binary64 w = 0#11 :=
    ⟨fun h => BitVec.eq_of_toNat_eq h, congrArg BitVec.toNat⟩
  have nothing : (@unpackMantissa .binary64 w).toNat = 0 ↔ @unpackMantissa .binary64 w = 0#52 :=
    ⟨fun h => BitVec.eq_of_toNat_eq h, congrArg BitVec.toNat⟩
  by_cases top : @unpackExponent .binary64 w = -1#11
  · rw [if_pos (ones.2 top), if_pos top]
    by_cases none : @unpackMantissa .binary64 w = 0#52
    · rw [if_pos (nothing.2 none), if_pos none]
      rfl
    · rw [if_neg (mt nothing.1 none), if_neg none]
      rfl
  · rw [if_neg (mt ones.1 top), if_neg top]
    by_cases bottom : @unpackExponent .binary64 w = 0#11
    · rw [if_pos (zeros.2 bottom), if_pos bottom]
      by_cases none : @unpackMantissa .binary64 w = 0#52
      · rw [dif_pos none, nothing.2 none]
        rfl
      · rw [dif_neg none, zeros.2 bottom]
        rfl
    · rw [if_neg (mt zeros.1 bottom), if_neg bottom]
      exact congrArg₂ (Binary.finite _) (toNat_leading _).symm (by omega)

end Double

end Waterfall
