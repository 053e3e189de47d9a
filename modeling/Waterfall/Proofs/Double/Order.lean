import Waterfall.Proofs.Double.Form
import Waterfall.Proofs.Ordered

set_option autoImplicit false

namespace Waterfall

namespace Double

open Float.Model (UnpackedFloat)
open Float.Model.UnpackedFloat (Sign)

def magnitude (m : ℕ) (e : ℤ) : ℚ := m * 2 ^ e

def signed : Sign → ℚ → ℚ
  | .positive, q => q
  | .negative, q => -q

-- Zero stands in for what is not a rational number.
def valueOf : UnpackedFloat → ℚ
  | .finite s m e _ => signed s (magnitude m e)
  | _ => 0

def value (x : Float) : ℚ := valueOf x.toModel.unpack

abbrev Line := WithBot (WithTop ℚ)

def placeOf? : UnpackedFloat → Option Line
  | .notANumber => none
  | .infinity .positive => some ⊤
  | .infinity .negative => some ⊥
  | u => some (valueOf u : WithTop ℚ)

def place? (x : Float) : Option Line := placeOf? x.toModel.unpack

theorem place?_of_isFinite {x : Float} (finite : x.isFinite = true) :
    place? x = some (value x : WithTop ℚ) := by
  change x.toModel.unpack.isFinite = true at finite
  unfold place? value
  cases u : x.toModel.unpack with
  | notANumber | infinity => rw [u] at finite; cases finite
  | zero | finite => rfl

theorem isSome_place? (x : Float) : (place? x).isSome = !x.isNaN := by
  change (placeOf? x.toModel.unpack).isSome = !x.toModel.unpack.isNaN
  cases x.toModel.unpack with
  | infinity s => cases s <;> rfl
  | notANumber | zero | finite => rfl

theorem isNaN_of_isFinite {x : Float} (finite : x.isFinite = true) : x.isNaN = false := by
  change x.toModel.unpack.isFinite = true at finite
  change x.toModel.unpack.isNaN = false
  generalize x.toModel.unpack = u at finite ⊢
  cases u with
  | notANumber => cases finite
  | infinity | zero | finite => rfl

theorem magnitude_pos {m : ℕ} (pos : 0 < m) (e : ℤ) : 0 < magnitude m e :=
  mul_pos (Nat.cast_pos.2 pos) (zpow_pos two_pos e)

-- A greater exponent goes with a full mantissa.
theorem Canonical.magnitude_lt {m m' : ℕ} {e e' : ℤ} (form : Canonical m e)
    (form' : Canonical m' e') (less : e < e') : magnitude m e < magnitude m' e' := by
  have lowest := form.lowest
  have full : 2 ^ 52 ≤ m' := form'.full.resolve_right (by omega)
  have wider : (2 : ℚ) ^ (e + 1) ≤ 2 ^ e' := zpow_le_zpow_right₀ one_le_two (by omega)
  calc (m : ℚ) * 2 ^ e < 2 ^ 53 * 2 ^ e := by
        gcongr
        exact_mod_cast form.mantissa
    _ = 2 ^ 52 * 2 ^ (e + 1) := by
        rw [zpow_add_one₀ two_ne_zero]
        ring
    _ ≤ m' * 2 ^ e' :=
        mul_le_mul (by exact_mod_cast full) wider (zpow_nonneg zero_le_two _) (Nat.cast_nonneg m')

theorem Canonical.compares {m m' : ℕ} {e e' : ℤ} (form : Canonical m e)
    (form' : Canonical m' e') :
    ((compare e e').then (compare m m')).Compares (magnitude m e) (magnitude m' e') := by
  obtain less | rfl | greater := lt_trichotomy e e'
  · rw [compare_lt_iff_lt.2 less]
    exact form.magnitude_lt form' less
  · have unit : (0 : ℚ) < 2 ^ e := zpow_pos two_pos e
    rw [compare_eq_iff_eq.2 rfl]
    obtain less | rfl | greater := lt_trichotomy m m'
    · rw [compare_lt_iff_lt.2 less]
      exact mul_lt_mul_of_pos_right (Nat.cast_lt.2 less) unit
    · rw [compare_eq_iff_eq.2 rfl]
      exact rfl
    · rw [compare_gt_iff_gt.2 greater]
      exact mul_lt_mul_of_pos_right (Nat.cast_lt.2 greater) unit
  · rw [compare_gt_iff_gt.2 greater]
    exact form'.magnitude_lt form greater

theorem compares_neg {o : Ordering} {p q : ℚ} (h : o.Compares p q) :
    o.swap.Compares (-p) (-q) := by
  cases o with
  | lt | gt => exact neg_lt_neg h
  | eq => exact congrArg Neg.neg h

theorem compares_coe {o : Ordering} {p q : ℚ} (h : o.Compares p q) :
    o.Compares ((p : WithTop ℚ) : Line) ((q : WithTop ℚ) : Line) := by
  cases o with
  | lt | gt => exact WithBot.coe_lt_coe.2 (WithTop.coe_lt_coe.2 h)
  | eq => exact congrArg (fun q : ℚ => ((q : WithTop ℚ) : Line)) h

theorem compare_of_isFinite {x y : Float} (fx : x.isFinite = true) (fy : y.isFinite = true) :
    ∃ o : Ordering, x.toModel.unpack.compare y.toModel.unpack = some o ∧
      o.Compares (value x) (value y) := by
  change x.toModel.unpack.isFinite = true at fx
  change y.toModel.unpack.isFinite = true at fy
  unfold value
  cases u : x.toModel.unpack with
  | notANumber | infinity => rw [u] at fx; cases fx
  | zero s =>
    cases v : y.toModel.unpack with
    | notANumber | infinity => rw [v] at fy; cases fy
    | zero => exact ⟨.eq, rfl, rfl⟩
    | finite t m' e' pos' =>
      cases t with
      | positive => exact ⟨.lt, rfl, magnitude_pos pos' e'⟩
      | negative => exact ⟨.gt, rfl, neg_lt_zero.2 (magnitude_pos pos' e')⟩
  | finite s m e pos =>
    cases v : y.toModel.unpack with
    | notANumber | infinity => rw [v] at fy; cases fy
    | zero =>
      cases s with
      | positive => exact ⟨.gt, rfl, magnitude_pos pos e⟩
      | negative => exact ⟨.lt, rfl, neg_lt_zero.2 (magnitude_pos pos e)⟩
    | finite t m' e' pos' =>
      have below := magnitude_pos pos e
      have below' := magnitude_pos pos' e'
      have same := (canonical_of_unpack u).compares (canonical_of_unpack v)
      cases s with
      | positive =>
        cases t with
        | positive => exact ⟨_, rfl, same⟩
        | negative => exact ⟨.gt, rfl, (neg_lt_zero.2 below').trans below⟩
      | negative =>
        cases t with
        | positive => exact ⟨.lt, rfl, (neg_lt_zero.2 below).trans below'⟩
        | negative => exact ⟨_, rfl, compares_neg same⟩

theorem compare_of_place? {x y : Float} {p q : Line} (hp : place? x = some p)
    (hq : place? y = some q) :
    ∃ o : Ordering, x.toModel.unpack.compare y.toModel.unpack = some o ∧ o.Compares p q := by
  by_cases finite : x.isFinite = true ∧ y.isFinite = true
  · obtain ⟨fx, fy⟩ := finite
    obtain ⟨o, compared, compares⟩ := compare_of_isFinite fx fy
    rw [place?_of_isFinite fx] at hp
    rw [place?_of_isFinite fy] at hq
    cases hp
    cases hq
    exact ⟨o, compared, compares_coe compares⟩
  · change ¬ (x.toModel.unpack.isFinite = true ∧ y.toModel.unpack.isFinite = true) at finite
    unfold place? at hp hq
    generalize x.toModel.unpack = u at hp finite ⊢
    generalize y.toModel.unpack = v at hq finite ⊢
    have inside (r : ℚ) : (⊥ : Line) < (r : WithTop ℚ) ∧ ((r : WithTop ℚ) : Line) < ⊤ :=
      ⟨WithBot.bot_lt_coe _, WithBot.coe_lt_coe.2 (WithTop.coe_lt_top r)⟩
    cases u with
    | notANumber => cases hp
    | infinity s =>
      cases v with
      | notANumber => cases hq
      | infinity t =>
        cases s <;> cases t <;> cases hp <;> cases hq
        · exact ⟨.eq, rfl, rfl⟩
        · exact ⟨.lt, rfl, bot_lt_top⟩
        · exact ⟨.gt, rfl, bot_lt_top⟩
        · exact ⟨.eq, rfl, rfl⟩
      | zero | finite =>
        cases s <;> cases hp <;> cases hq
        · exact ⟨.lt, rfl, (inside _).1⟩
        · exact ⟨.gt, rfl, (inside _).2⟩
    | zero | finite =>
      cases v with
      | notANumber => cases hq
      | infinity t =>
        cases t <;> cases hp <;> cases hq
        · exact ⟨.gt, rfl, (inside _).1⟩
        · exact ⟨.lt, rfl, (inside _).2⟩
      | zero | finite => exact absurd ⟨rfl, rfl⟩ finite

theorem compare_of_no_place {x y : Float} (h : place? x = none ∨ place? y = none) :
    x.toModel.unpack.compare y.toModel.unpack = none := by
  unfold place? at h
  generalize x.toModel.unpack = u at h ⊢
  generalize y.toModel.unpack = v at h ⊢
  have none_iff (w : UnpackedFloat) : placeOf? w = none → w = .notANumber := by
    cases w with
    | notANumber => exact fun _ => rfl
    | infinity s => cases s <;> exact nofun
    | zero | finite => exact nofun
  obtain h | h := h
  · rw [none_iff u h]
    rfl
  · rw [none_iff v h]
    cases u with
    | infinity s => cases s <;> rfl
    | finite s => cases s <;> rfl
    | notANumber | zero => rfl

theorem test_compare_iff {x y : Float} (test : Option Ordering → Bool) {related : Line → Line → Prop}
    (never : test none = false)
    (sound : ∀ {o : Ordering} {p q : Line}, o.Compares p q → (test (some o) = true ↔ related p q)) :
    test (x.toModel.unpack.compare y.toModel.unpack) = true ↔
      ∃ p q, place? x = some p ∧ place? y = some q ∧ related p q := by
  constructor
  · intro holds
    cases hp : place? x with
    | none => rw [compare_of_no_place (.inl hp), never] at holds; cases holds
    | some p =>
      cases hq : place? y with
      | none => rw [compare_of_no_place (.inr hq), never] at holds; cases holds
      | some q =>
        obtain ⟨o, same, compares⟩ := compare_of_place? hp hq
        rw [same] at holds
        exact ⟨p, q, rfl, rfl, (sound compares).1 holds⟩
  · rintro ⟨p, q, hp, hq, holds⟩
    obtain ⟨o, same, compares⟩ := compare_of_place? hp hq
    rw [same]
    exact (sound compares).2 holds

theorem lt_iff {x y : Float} :
    x < y ↔ ∃ p q, place? x = some p ∧ place? y = some q ∧ p < q := by
  change decide (x.toModel.unpack.lt y.toModel.unpack = true) = true ↔ _
  rw [decide_eq_true_iff]
  refine test_compare_iff (· == some .lt) rfl fun compares => ?_
  rw [beq_iff_eq, Option.some.injEq, compares.eq_lt]

theorem le_iff {x y : Float} :
    x ≤ y ↔ ∃ p q, place? x = some p ∧ place? y = some q ∧ p ≤ q := by
  change decide (x.toModel.unpack.le y.toModel.unpack = true) = true ↔ _
  rw [decide_eq_true_iff]
  refine test_compare_iff (·.any (·.isLE)) rfl fun compares => ?_
  rw [Option.any_some, Ordering.isLE_iff_ne_gt, ← ne_eq, compares.ne_gt]

theorem beq_iff {x y : Float} :
    (x == y) = true ↔ ∃ p q, place? x = some p ∧ place? y = some q ∧ p = q := by
  refine test_compare_iff (· == some .eq) rfl fun compares => ?_
  rw [beq_iff_eq, Option.some.injEq, compares.eq_eq]

section

variable {x y : Float} (fx : x.isFinite = true) (fy : y.isFinite = true)

include fx fy

theorem lt_iff_value : x < y ↔ value x < value y := by
  rw [lt_iff, place?_of_isFinite fx, place?_of_isFinite fy]
  simp

theorem le_iff_value : x ≤ y ↔ value x ≤ value y := by
  rw [le_iff, place?_of_isFinite fx, place?_of_isFinite fy]
  simp

theorem beq_iff_value : (x == y) = true ↔ value x = value y := by
  rw [beq_iff, place?_of_isFinite fx, place?_of_isFinite fy]
  simp [eq_comm]

end

theorem scalar_zero : @OfNat.ofNat Float 0 (Scalar.instOfNat 0) = 0 := by
  decide

theorem exists_place?_iff {x : Float} : (∃ p, place? x = some p) ↔ x.isNaN = false := by
  rw [← Option.isSome_iff_exists, isSome_place?, Bool.not_eq_true']

theorem beq_self {x : Float} (number : x.isNaN = false) : (x == x) = true := by
  obtain ⟨p, hp⟩ := exists_place?_iff.2 number
  exact beq_iff.2 ⟨p, p, hp, hp, rfl⟩

section

variable {x y : Float}

theorem le_iff_of_not_lt (notLess : ¬ x < y) :
    y ≤ x ↔ y.isNaN = false ∧ x.isNaN = false := by
  rw [← exists_place?_iff, ← exists_place?_iff]
  constructor
  · intro holds
    obtain ⟨q, p, hq, hp, -⟩ := le_iff.1 holds
    exact ⟨⟨q, hq⟩, p, hp⟩
  · rintro ⟨⟨q, hq⟩, p, hp⟩
    exact le_iff.2 ⟨q, p, hq, hp, not_lt.1 fun less => notLess (lt_iff.2 ⟨p, q, hp, hq, less⟩)⟩

theorem lt_iff_of_not_le (notLe : ¬ x ≤ y) :
    y < x ↔ y.isNaN = false ∧ x.isNaN = false := by
  rw [← exists_place?_iff, ← exists_place?_iff]
  constructor
  · intro holds
    obtain ⟨q, p, hq, hp, -⟩ := lt_iff.1 holds
    exact ⟨⟨q, hq⟩, p, hp⟩
  · rintro ⟨⟨q, hq⟩, p, hp⟩
    exact lt_iff.2 ⟨q, p, hq, hp, not_le.1 fun le => notLe (le_iff.2 ⟨p, q, hp, hq, le⟩)⟩

end

theorem isNumber_eq (x : Float) : Scalar.isNumber x = !x.isNaN := by
  cases nan : x.isNaN with
  | false => exact beq_self nan
  | true =>
    refine Bool.eq_false_iff.2 fun equal => ?_
    obtain ⟨p, -, place, -⟩ := beq_iff.1 equal
    have := exists_place?_iff.1 ⟨p, place⟩
    rw [nan] at this
    cases this

instance : Scalar.Ordered Float where
  number_of_le le := by
    obtain ⟨p, q, hp, hq, -⟩ := le_iff.1 le
    rw [isNumber_eq, isNumber_eq, exists_place?_iff.1 ⟨p, hp⟩,
      exists_place?_iff.1 ⟨q, hq⟩]
    exact ⟨rfl, rfl⟩
  le_trans le le' := by
    obtain ⟨p, q, hp, hq, le⟩ := le_iff.1 le
    obtain ⟨q', r, hq', hr, le'⟩ := le_iff.1 le'
    cases hq.symm.trans hq'
    exact le_iff.2 ⟨p, r, hp, hr, le.trans le'⟩
  le_of_not_lt {x y} hx hy notLess := by
    rw [isNumber_eq, Bool.not_eq_true'] at hx hy
    exact (le_iff_of_not_lt notLess).2 ⟨hy, hx⟩
  not_lt_of_le le less := by
    obtain ⟨p, q, hp, hq, le⟩ := le_iff.1 le
    obtain ⟨q', p', hq', hp', less⟩ := lt_iff.1 less
    cases hp.symm.trans hp'
    cases hq.symm.trans hq'
    exact absurd less (not_lt.2 le)
  le_of_lt less := by
    obtain ⟨p, q, hp, hq, less⟩ := lt_iff.1 less
    exact le_iff.2 ⟨p, q, hp, hq, less.le⟩
  number_zero := by decide

theorem sub_self {x : Float} (finite : x.isFinite = true) : x - x = 0.0 := by
  change x.toModel.unpack.isFinite = true at finite
  have zero : UnpackedFloat.sub .binary64 x.toModel.unpack x.toModel.unpack = .zero .positive := by
    generalize x.toModel.unpack = u at finite ⊢
    cases u with
    | notANumber | infinity sign => cases finite
    | zero sign => cases sign <;> rfl
    | finite sign m e pos =>
      change UnpackedFloat.normalize _ (sign.apply _ - sign.apply _) _ .positive = .zero .positive
      rw [Int.sub_self]
      rfl
  change Float.ofModel (.pack (UnpackedFloat.sub .binary64 x.toModel.unpack x.toModel.unpack)) = 0.0
  rw [zero]
  decide

theorem isNaN_mul {x y : Float} {s : Sign} {m : ℕ} {e : ℤ} {pos : 0 < m}
    (hy : y.toModel.unpack = .finite s m e pos) : (x * y).isNaN = x.isNaN := by
  change (Float.Model.pack
    (UnpackedFloat.mul .binary64 x.toModel.unpack y.toModel.unpack)).unpack.isNaN = x.toModel.unpack.isNaN
  rw [isNaN_unpack_pack, hy]
  cases x.toModel.unpack with
  | notANumber | infinity t | zero t => rfl
  | finite t m' e' pos' =>
    change (UnpackedFloat.roundWithAccuracy _ _ _ _ _).isNaN = false
    unfold UnpackedFloat.roundWithAccuracy
    dsimp only
    split <;> rfl

theorem isNaN_sub_left {x : Float} (nan : x.isNaN = true) (y : Float) : (x - y).isNaN = true := by
  change x.toModel.unpack.isNaN = true at nan
  change (Float.Model.pack
    (UnpackedFloat.sub .binary64 x.toModel.unpack y.toModel.unpack)).unpack.isNaN = true
  rw [isNaN_unpack_pack]
  cases u : x.toModel.unpack with
  | notANumber => rfl
  | infinity | zero | finite => rw [u] at nan; cases nan

end Double

end Waterfall
