import Mathlib.Data.List.Basic
import Mathlib.Tactic.Ring
import Mathlib.Tactic.SplitIfs
import Waterfall.Decimal.Numeral

set_option autoImplicit false

namespace Waterfall

theorem forall_append {p : Char → Prop} {s t : String} :
    (∀ c ∈ (s ++ t).toList, p c) ↔ (∀ c ∈ s.toList, p c) ∧ ∀ c ∈ t.toList, p c := by
  rw [String.toList_append, List.forall_mem_append]

theorem forall_of_all {p : Char → Bool} {s : String} (h : s.toList.all p) : ∀ c ∈ s.toList, p c :=
  List.all_eq_true.1 h

theorem toList_toString (n : Nat) : (toString n).toList = Nat.toDigits 10 n := by simp

theorem isDigit_of_mem_toString {n : Nat} {c : Char} (h : c ∈ (toString n).toList) : c.isDigit :=
  Nat.isDigit_of_mem_toDigits (by decide) (by decide) (toList_toString n ▸ h)

namespace Decimal

structure Common (p : Char → Prop) : Prop where
  digit : ∀ c : Char, c.isDigit → p c
  point : p '.'
  minus : p '-'

variable {p : Char → Prop}

theorem Common.natural (common : Common p) (n : Nat) : ∀ c ∈ (toString n).toList, p c :=
  fun c member => common.digit c (isDigit_of_mem_toString member)

theorem Common.integer (common : Common p) (n : Int) : ∀ c ∈ (toString n).toList, p c := by
  cases n with
  | ofNat n => exact common.natural n
  | negSucc n =>
    change ∀ c ∈ ("-" ++ toString (n + 1)).toList, p c
    exact forall_append.2 ⟨by simpa using common.minus, common.natural (n + 1)⟩

theorem Common.zeros (common : Common p) (n : Nat) : ∀ c ∈ (zeros n).toList, p c := by
  rw [Decimal.zeros, String.toList_ofList]
  intro c member
  rw [List.eq_of_mem_replicate member]
  exact common.digit '0' (by decide)

theorem Common.layout (common : Common p) (style : Style) (mark : ∀ c ∈ style.wholeMark.toList, p c)
    (exponent : (∀ n, style.positional n) ∨ p 'e') (x : Decimal) :
    ∀ c ∈ (style.layout x).toList, p c := by
  have digits := common.natural x.digits
  have zero : ∀ c ∈ "0".toList, p c := by simpa using common.digit '0' (by decide)
  have point : ∀ c ∈ ".".toList, p c := by simpa using common.point
  have leading : ∀ c ∈ "0.".toList, p c := by
    simpa using And.intro (common.digit '0' (by decide)) common.point
  have front (n : Nat) : ∀ c ∈ (String.ofList ((toString x.digits).toList.take n)).toList, p c := by
    rw [String.toList_ofList]
    exact fun c member => digits c (List.mem_of_mem_take member)
  have back (n : Nat) : ∀ c ∈ (String.ofList ((toString x.digits).toList.drop n)).toList, p c := by
    rw [String.toList_ofList]
    exact fun c member => digits c (List.mem_of_mem_drop member)
  unfold Style.layout
  dsimp only
  split
  next => exact forall_append.2 ⟨zero, mark⟩
  next =>
    split
    next =>
      split_ifs
      · exact forall_append.2 ⟨forall_append.2 ⟨digits, common.zeros _⟩, mark⟩
      · exact forall_append.2 ⟨forall_append.2 ⟨front _, point⟩, back _⟩
      · exact forall_append.2 ⟨forall_append.2 ⟨leading, common.zeros _⟩, digits⟩
    next far =>
      have marked : ∀ c ∈ "e".toList, p c := by
        simpa using exponent.resolve_left fun always => far (always _)
      refine forall_append.2 ⟨forall_append.2 ⟨?_, marked⟩, common.integer _⟩
      split_ifs
      · exact front 1
      · exact forall_append.2 ⟨forall_append.2 ⟨front 1, point⟩, back 1⟩

theorem Common.finite (common : Common p) (style : Style) (mark : ∀ c ∈ style.wholeMark.toList, p c)
    (exponent : (∀ n, style.positional n) ∨ p 'e') (f : Binary.Layout) (negative : Bool) (m : Nat)
    (q : Int) :
    ∀ c ∈ (style.write f (.finite negative m q)).toList, p c := by
  refine forall_append.2 ⟨?_, common.layout style mark exponent _⟩
  cases negative
  · simp
  · simpa using common.minus

end Decimal

namespace Numeral

theorem digit?_of_isDigit {c : Char} (h : c.isDigit) : digit? c = some (c.toNat - '0'.toNat) := by
  rw [Char.isDigit_iff_toNat] at h
  exact if_pos ⟨h.1, h.2⟩

def digitsOf (n : Nat) : List Nat :=
  (Nat.toDigits 10 n).map fun c => c.toNat - '0'.toNat

theorem digits_append {cs rest : List Char} (all : ∀ c ∈ cs, c.isDigit)
    (stop : ∀ c ∈ rest.head?, digit? c = none) :
    digits (cs ++ rest) = (cs.map fun c => c.toNat - '0'.toNat, rest) := by
  induction cs with
  | nil =>
    cases rest with
    | nil => rfl
    | cons c rest => simp [digits, stop c rfl]
  | cons c cs ih =>
    rw [List.forall_mem_cons] at all
    simp [digits, digit?_of_isDigit all.1, ih all.2]

theorem digits_toString (n : Nat) {rest : List Char} (stop : ∀ c ∈ rest.head?, digit? c = none) :
    digits ((toString n).toList ++ rest) = (digitsOf n, rest) := by
  rw [toList_toString]
  exact digits_append (fun c => Nat.isDigit_of_mem_toDigits (by decide) (by decide)) stop

theorem foldl_digits (ds : List Nat) (n : Nat) :
    ds.foldl (fun n d => 10 * n + d) n = 10 ^ ds.length * n + ofDigits ds := by
  induction ds generalizing n with
  | nil => simp [ofDigits]
  | cons d ds ih =>
    have first := ih (10 * 0 + d)
    rw [ofDigits, List.foldl_cons, List.foldl_cons, first, ih, List.length_cons]
    ring

theorem ofDigits_append (ds es : List Nat) :
    ofDigits (ds ++ es) = 10 ^ es.length * ofDigits ds + ofDigits es := by
  rw [ofDigits, List.foldl_append, foldl_digits]
  rfl

theorem ofDigits_digitsOf (n : Nat) : ofDigits (digitsOf n) = n := by
  rw [ofDigits, digitsOf, List.foldl_map, ← Nat.ofDigitChars_eq_foldl]
  exact Nat.ofDigitChars_ten_toDigits

theorem digitsOf_ne_nil (n : Nat) : digitsOf n ≠ [] :=
  mt List.map_eq_nil_iff.1 Nat.toDigits_ne_nil

theorem length_digitsOf_of_lt {n : Nat} (small : n < 10) : (digitsOf n).length = 1 := by
  rw [digitsOf, Nat.toDigits_of_lt_base small]
  rfl

end Numeral

end Waterfall
