import Mathlib
import Waterfall.Scalar

set_option autoImplicit false

namespace Waterfall

namespace Double

open Float.Model (Format UnpackedFloat)
open Float.Model.UnpackedFloat (Sign packComponents unpackSign unpackExponent unpackMantissa
  unpackExponent_packComponents unpackMantissa_packComponents)

structure Canonical (m : Nat) (e : Int) : Prop where
  mantissa : m < 2 ^ 53
  lowest : -1074 ≤ e
  highest : e ≤ 971
  full : 2 ^ 52 ≤ m ∨ e = -1074

theorem toNat_leading (fraction : BitVec 52) :
    (1#1 ++ fraction).toNat = 2 ^ 52 + fraction.toNat := by
  rw [BitVec.toNat_append, ← Nat.shiftLeft_add_eq_or_of_lt fraction.isLt]
  rfl

theorem exponentBias_binary64 : (Format.binary64.exponentBias : Int) = 1023 := by
  decide

theorem canonical_of_unpack {x : Float.Model} {s : Sign} {m : Nat} {e : Int} {pos : 0 < m}
    (h : x.unpack = .finite s m e pos) : Canonical m e := by
  change UnpackedFloat.unpack .binary64 x.toBits.toBitVec = _ at h
  unfold UnpackedFloat.unpack at h
  have fraction_lt : (@unpackMantissa .binary64 x.toBits.toBitVec).toNat < 2 ^ 52 :=
    (@unpackMantissa .binary64 _).isLt
  have biased_lt : (@unpackExponent .binary64 x.toBits.toBitVec).toNat < 2 ^ 11 :=
    (@unpackExponent .binary64 _).isLt
  dsimp only at h
  rw [exponentBias_binary64] at h
  by_cases top : @unpackExponent .binary64 x.toBits.toBitVec = -1#11
  · rw [if_pos top] at h
    by_cases none : @unpackMantissa .binary64 x.toBits.toBitVec = 0#52
    · rw [if_pos none] at h
      cases h
    · rw [if_neg none] at h
      cases h
  · rw [if_neg top] at h
    by_cases bottom : @unpackExponent .binary64 x.toBits.toBitVec = 0#11
    · rw [if_pos bottom] at h
      by_cases none : @unpackMantissa .binary64 x.toBits.toBitVec = 0#52
      · rw [dif_pos none] at h
        cases h
      · rw [dif_neg none] at h
        cases h
        rw [bottom]
        exact ⟨by omega, by decide, by decide, .inr (by decide)⟩
    · rw [if_neg bottom] at h
      have above : (@unpackExponent .binary64 x.toBits.toBitVec).toNat ≠ 0 := fun zero =>
        bottom (BitVec.eq_of_toNat_eq zero)
      have below : (@unpackExponent .binary64 x.toBits.toBitVec).toNat ≠ 2047 := fun ones =>
        top (BitVec.eq_of_toNat_eq ones)
      cases h
      have leading := toNat_leading (@unpackMantissa .binary64 x.toBits.toBitVec)
      exact ⟨leading.trans_lt (by omega), by omega, by omega,
        .inl ((Nat.le_add_right _ _).trans_eq leading.symm)⟩

theorem unpackSign_packComponents (s : Sign) (biased : BitVec 11) (fraction : BitVec 52) :
    @unpackSign .binary64 (packComponents .binary64 s biased fraction) = s.toBitVec := by
  ext i hi
  obtain rfl : i = 0 := Nat.lt_one_iff.1 hi
  change ((s.toBitVec ++ biased ++ fraction).extractLsb' 63 1)[0] = s.toBitVec[0]
  rw [BitVec.getElem_extractLsb', BitVec.getLsbD_append, if_neg (by omega), BitVec.getLsbD_append,
    if_neg (by omega)]
  rfl

theorem finite_congr {s s' : Sign} {m m' : Nat} {e e' : Int} {pos : 0 < m} {pos' : 0 < m'}
    (sign : s = s') (mantissa : m = m') (exponent : e = e') :
    UnpackedFloat.finite s m e pos = UnpackedFloat.finite s' m' e' pos' := by
  subst sign mantissa exponent
  rfl

theorem unpack_packComponents (s : Sign) (biased : BitVec 11) (fraction : BitVec 52) :
    UnpackedFloat.unpack .binary64 (packComponents .binary64 s biased fraction) =
      if biased = -1#11 then if fraction = 0#52 then .infinity s else .notANumber
      else if biased = 0#11 then
        if pos : 0 < fraction.toNat then .finite s fraction.toNat (-1074) pos else .zero s
      else .finite s (2 ^ 52 + fraction.toNat) (biased.toNat - 1075) (by omega) := by
  have sign : Sign.ofBitVec (@unpackSign .binary64 (packComponents .binary64 s biased fraction)) = s := by
    rw [unpackSign_packComponents]
    cases s <;> rfl
  have exponent : @unpackExponent .binary64 (packComponents .binary64 s biased fraction) = biased :=
    unpackExponent_packComponents
  have mantissa : @unpackMantissa .binary64 (packComponents .binary64 s biased fraction) = fraction :=
    unpackMantissa_packComponents
  unfold UnpackedFloat.unpack
  dsimp only
  by_cases top : biased = -1#11
  · rw [if_pos (exponent.trans top), if_pos top, mantissa, sign]
  · rw [if_neg (exponent.trans_ne top), if_neg top]
    by_cases bottom : biased = 0#11
    · rw [if_pos (exponent.trans bottom), if_pos bottom]
      by_cases none : fraction = 0#52
      · rw [dif_pos (mantissa.trans none), dif_neg (by simp [none]), sign]
      · rw [dif_neg (mantissa.trans_ne none), dif_pos (BitVec.toNat_pos_of_ne_zero none)]
        exact finite_congr sign (congrArg _ mantissa) (by rw [exponent, bottom]; rfl)
    · rw [if_neg (exponent.trans_ne bottom), if_neg bottom]
      refine finite_congr sign ?_ ?_
      · rw [mantissa]
        exact toNat_leading fraction
      · rw [exponent]
        rfl

theorem unpack_pack {s : Sign} {m : Nat} {e : Int} (form : Canonical m e) (pos : 0 < m) :
    (Float.Model.pack (.finite s m e pos)).unpack = .finite s m e pos := by
  change UnpackedFloat.unpack .binary64 (UnpackedFloat.pack .binary64 _) = _
  obtain ⟨mantissa, lowest, highest, full⟩ := form
  have bits : m.log2 < 53 ↔ m < 2 ^ 53 := Nat.log2_lt pos.ne'
  have filled : 52 ≤ m.log2 ↔ 2 ^ 52 ≤ m := Nat.le_log2 pos.ne'
  have held : (BitVec.ofNat 52 m).toNat = m % 2 ^ 52 := BitVec.toNat_ofNat m 52
  rw [UnpackedFloat.pack.eq_def]
  dsimp only
  rw [exponentBias_binary64, if_neg (by omega)]
  by_cases normal : m.log2 + 1 = Format.binary64.mantissaBits
  · rw [if_pos normal]
    change m.log2 + 1 = 53 at normal
    have leading : 2 ^ 52 ≤ m := filled.1 (by omega)
    have biased : (BitVec.ofNat 11 (e + 1023 + (52 : Nat)).toNat).toNat = (e + 1075).toNat := by
      rw [BitVec.toNat_ofNat]
      omega
    rw [unpack_packComponents, if_neg, if_neg]
    · exact finite_congr rfl (by omega) (by omega)
    · intro zero
      have bottom := biased.symm.trans (congrArg BitVec.toNat zero)
      simp only [BitVec.toNat_ofNat] at bottom
      omega
    · intro ones
      have top : (e + 1075).toNat = 2047 := biased.symm.trans (congrArg BitVec.toNat ones)
      omega
  · rw [if_neg normal]
    change ¬ m.log2 + 1 = 53 at normal
    obtain rfl : e = -1074 := full.resolve_left (by omega)
    rw [unpack_packComponents, if_neg (by decide), if_pos rfl, dif_pos (by omega)]
    exact finite_congr rfl (by omega) rfl

theorem isNaN_unpack_packComponents {biased : BitVec 11} (finite : biased ≠ -1#11) (s : Sign)
    (fraction : BitVec 52) :
    (UnpackedFloat.unpack .binary64 (packComponents .binary64 s biased fraction)).isNaN = false := by
  rw [unpack_packComponents, if_neg finite]
  by_cases bottom : biased = 0#11
  · rw [if_pos bottom]
    by_cases pos : 0 < fraction.toNat
    · rw [dif_pos pos]
      rfl
    · rw [dif_neg pos]
      rfl
  · rw [if_neg bottom]
    rfl

theorem isNaN_unpack_pack (u : UnpackedFloat) : (Float.Model.pack u).unpack.isNaN = u.isNaN := by
  cases u with
  | notANumber => rfl
  | infinity s | zero s => cases s <;> rfl
  | finite s m e pos =>
    change (UnpackedFloat.unpack .binary64 (UnpackedFloat.pack .binary64 _)).isNaN = false
    rw [UnpackedFloat.pack.eq_def]
    dsimp only
    rw [exponentBias_binary64]
    split
    next => cases s <;> rfl
    next fits =>
      split
      next =>
        refine isNaN_unpack_packComponents (fun ones => ?_) s _
        have top : (e + 1023 + (52 : Nat)).toNat % 2 ^ 11 = 2047 :=
          (BitVec.toNat_ofNat _ _).symm.trans (congrArg BitVec.toNat ones)
        change ¬ 2 ^ 11 ≤ (e + 1023 + (52 : Nat)).toNat + 1 at fits
        omega
      next => exact isNaN_unpack_packComponents (by decide) s _

end Double

end Waterfall

