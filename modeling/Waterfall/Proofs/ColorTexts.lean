import Waterfall.Color
import Waterfall.Proofs.Blanks

set_option autoImplicit false

namespace Waterfall

namespace Color

def IsHexDigit (c : Char) : Prop :=
  ('0' ≤ c ∧ c ≤ '9') ∨ ('a' ≤ c ∧ c ≤ 'f') ∨ ('A' ≤ c ∧ c ≤ 'F')

instance (c : Char) : Decidable (IsHexDigit c) :=
  inferInstanceAs (Decidable (_ ∨ _ ∨ _))

/-- The characters that stand for a channel: two digits, or a plus sign and a digit. -/
def IsChannel (a b : Char) : Prop :=
  (IsHexDigit a ∨ a = '+') ∧ IsHexDigit b

def rewritten (c : Char) : Char :=
  if c = '+' then '0' else c.toLower

section

variable {a b c : Char} {n x y : ℕ} {v : UInt8}

theorem IsHexDigit.toNat_lt (digit : IsHexDigit c) : c.toNat < 128 := by
  have bound {high : Char} (le : c ≤ high) (small : high.toNat < 128) : c.toNat < 128 :=
    Nat.lt_of_le_of_lt (Char.le_def.1 le) small
  obtain ⟨-, le⟩ | ⟨-, le⟩ | ⟨-, le⟩ := digit
  · exact bound le (by decide)
  · exact bound le (by decide)
  · exact bound le (by decide)

theorem IsHexDigit.ne_plus (digit : IsHexDigit c) : c ≠ '+' := by
  rintro rfl
  exact absurd digit (by decide)

theorem isHexDigit_of_digit? (read : digit? c = some n) : IsHexDigit c := by
  unfold digit? at read
  split at read
  next decimal => exact .inl decimal
  next =>
    split at read
    next lower => exact .inr (.inl lower)
    next =>
      split at read
      next upper => exact .inr (.inr upper)
      next => cases read

theorem IsHexDigit.exists_digit? (digit : IsHexDigit c) :
    ∃ n < 16, digit? c = some n ∧ hexDigit n = rewritten c := by
  have each : ∀ k < 128, IsHexDigit (Char.ofNat k) →
      ∃ n < 16, digit? (Char.ofNat k) = some n ∧ hexDigit n = rewritten (Char.ofNat k) := by
    decide +kernel
  have found := each c.toNat digit.toNat_lt
  rw [Char.ofNat_toNat] at found
  exact found digit

theorem IsChannel.ascii (channel : IsChannel a b) : a.toNat < 128 ∧ b.toNat < 128 :=
  ⟨channel.1.elim IsHexDigit.toNat_lt fun plus => plus ▸ by decide, channel.2.toNat_lt⟩

theorem channelText_ofNat (high : x < 16) (low : y < 16) :
    channelText (.ofNat (16 * x + y)) = [hexDigit x, hexDigit y] := by
  have value : (UInt8.ofNat (16 * x + y)).toNat = 16 * x + y := by
    rw [UInt8.toNat_ofNat']
    omega
  have first : (16 * x + y) / 16 = x := by omega
  have second : hexDigit (16 * x + y) = hexDigit y := by
    rw [hexDigit, Nat.mul_add_mod]
    rfl
  rw [channelText, value, first, second]

theorem IsChannel.exists_channel? (channel : IsChannel a b) :
    ∃ v, channel? a b = some v ∧ channelText v = [rewritten a, rewritten b] := by
  obtain ⟨y, low, read_b, text_b⟩ := channel.2.exists_digit?
  obtain digit | rfl := channel.1
  · obtain ⟨x, high, read_a, text_a⟩ := digit.exists_digit?
    refine ⟨.ofNat (16 * x + y), ?_, ?_⟩
    · rw [channel?, if_neg digit.ne_plus, read_a, read_b]
    · rw [channelText_ofNat high low, text_a, text_b]
  · refine ⟨.ofNat y, ?_, ?_⟩
    · rw [channel?, if_pos rfl, read_b, Option.map_some]
    · have text := channelText_ofNat (Nat.zero_lt_of_lt low) low (x := 0)
      rw [Nat.mul_zero, Nat.zero_add] at text
      rw [text, text_b]
      rfl

theorem isChannel_of_channel? (read : channel? a b = some v) : IsChannel a b := by
  unfold channel? at read
  split at read
  next plus =>
    obtain ⟨y, read_b, -⟩ := Option.map_eq_some_iff.1 read
    exact ⟨.inr plus, isHexDigit_of_digit? read_b⟩
  next =>
    split at read
    next x y read_a read_b => exact ⟨.inl (isHexDigit_of_digit? read_a), isHexDigit_of_digit? read_b⟩
    next => cases read

theorem channelText_of_channel? (read : channel? a b = some v) :
    channelText v = [rewritten a, rewritten b] := by
  obtain ⟨w, read', text⟩ := (isChannel_of_channel? read).exists_channel?
  rwa [Option.some.inj (read.symm.trans read')]

end

inductive Spelled : List Char → Prop
  | intro {a b c d e f : Char} (red : IsChannel a b) (green : IsChannel c d) (blue : IsChannel e f) :
    Spelled [a, b, c, d, e, f]

/-- The text holds these characters between blanks, behind any number of number signs. -/
def Wraps (s : String) (ds : List Char) : Prop :=
  ∃ before signs after, s.toList = before ++ (signs ++ ds) ++ after ∧
    (∀ c ∈ before ++ after, isBlank c = true) ∧ ∀ c ∈ signs, c = '#'

section

variable {s : String} {ds : List Char} {color : Color}

theorem wraps_digits (s : String) : Wraps s (digits s) := by
  obtain ⟨before, after, parts, blank⟩ := exists_trimChars s.toList
  refine ⟨before, (trimChars s.toList).takeWhile (· = '#'), after, ?_, blank, fun c member => ?_⟩
  · rw [digits, List.takeWhile_append_dropWhile]
    exact parts
  · simpa using List.mem_takeWhile_imp member

theorem Spelled.forall_mem (spelled : Spelled ds) : ∀ c ∈ ds, IsHexDigit c ∨ c = '+' := by
  obtain ⟨red, green, blue⟩ := spelled
  simp [red.1, green.1, blue.1, red.2, green.2, blue.2]

-- No character of a channel is a blank or a number sign, so that these end where the channels begin.
theorem Spelled.digits_eq (spelled : Spelled ds) (wraps : Wraps s ds) : digits s = ds := by
  have each : ∀ k < 128, IsHexDigit (Char.ofNat k) ∨ Char.ofNat k = '+' →
      isBlank (Char.ofNat k) = false ∧ Char.ofNat k ≠ '#' := by decide +kernel
  have solid : ∀ c ∈ ds, isBlank c = false ∧ c ≠ '#' := by
    intro c member
    have channel := spelled.forall_mem c member
    have small : c.toNat < 128 := channel.elim IsHexDigit.toNat_lt fun plus => plus ▸ by decide
    rw [← Char.ofNat_toNat c] at channel ⊢
    exact each c.toNat small channel
  obtain ⟨before, signs, after, parts, blank, sign⟩ := wraps
  have listed : ds ≠ [] := by
    obtain ⟨-, -, -⟩ := spelled
    exact List.cons_ne_nil _ _
  have trimmed : trimChars s.toList = signs ++ ds := by
    rw [parts]
    refine trimChars_append blank ?_
    rw [List.forall_mem_append]
    exact ⟨fun c member => sign c member ▸ by decide, fun c member => (solid c member).1⟩
  rw [digits, trimmed, List.dropWhile_append_of_pos (by simpa using sign)]
  obtain ⟨first, rest, rfl⟩ := List.exists_cons_of_ne_nil listed
  exact List.dropWhile_cons_of_neg (by simpa using (solid first List.mem_cons_self).2)

theorem Spelled.exists_ofText (spelled : Spelled (digits s)) : ∃ color, ofText s = .ok color := by
  unfold ofText
  generalize digits s = ds at spelled
  obtain ⟨red, green, blue⟩ := spelled
  obtain ⟨_, read_red, -⟩ := red.exists_channel?
  obtain ⟨_, read_green, -⟩ := green.exists_channel?
  obtain ⟨_, read_blue, -⟩ := blue.exists_channel?
  dsimp only
  rw [if_pos (by simp [red.ascii, green.ascii, blue.ascii]), read_red, read_green, read_blue]
  exact ⟨_, rfl⟩

theorem spelled_of_ofText (read : ofText s = .ok color) :
    Spelled (digits s) ∧ color.toString = String.ofList ('#' :: (digits s).map rewritten) := by
  unfold ofText at read
  split at read
  next a b c d e f listed =>
    split at read
    next =>
      split at read
      next red green blue read_red read_green read_blue =>
        cases read
        rw [listed]
        refine ⟨⟨isChannel_of_channel? read_red, isChannel_of_channel? read_green,
          isChannel_of_channel? read_blue⟩, ?_⟩
        rw [toString, channelText_of_channel? read_red, channelText_of_channel? read_green,
          channelText_of_channel? read_blue]
        rfl
      next => cases read
    next => cases read
  next => cases read

def SixDigits (ds : List Char) : Prop :=
  ds.length = 6 ∧ ∀ c ∈ ds, IsHexDigit c

theorem SixDigits.spelled (six : SixDigits ds) : Spelled ds := by
  obtain ⟨six, digit⟩ := six
  match ds, six with
  | [a, b, c, d, e, f], _ =>
    simp only [List.forall_mem_cons] at digit
    obtain ⟨a, b, c, d, e, f, -⟩ := digit
    exact ⟨⟨.inl a, b⟩, ⟨.inl c, d⟩, ⟨.inl e, f⟩⟩

theorem sixDigits_iff : SixDigits ds ↔ Spelled ds ∧ '+' ∉ ds := by
  constructor
  · intro six
    exact ⟨six.spelled, fun plus => (six.2 '+' plus).ne_plus rfl⟩
  · rintro ⟨spelled, plain⟩
    refine ⟨by cases spelled; rfl, fun c member => ?_⟩
    exact (spelled.forall_mem c member).resolve_right fun plus => plain (plus ▸ member)

end

/-- A text is a colour exactly if it spells three channels between blanks and behind number signs. -/
theorem ofText_spelled (s : String) :
    ((∃ color, ofText s = .ok color) ↔ ∃ ds, Wraps s ds ∧ Spelled ds) ∧
      (∀ color ds, ofText s = .ok color → Wraps s ds → Spelled ds →
        color.toString = String.ofList ('#' :: ds.map rewritten)) ∧
      ∀ ds, (SixDigits ds ↔ Spelled ds ∧ '+' ∉ ds) ∧
        ('+' ∉ ds → ds.map rewritten = ds.map Char.toLower) := by
  refine ⟨⟨?_, ?_⟩, ?_, fun ds => ⟨sixDigits_iff, fun plain => ?_⟩⟩
  · rintro ⟨color, read⟩
    exact ⟨digits s, wraps_digits s, (spelled_of_ofText read).1⟩
  · rintro ⟨ds, wraps, spelled⟩
    have shown := spelled.digits_eq wraps
    exact Spelled.exists_ofText (shown ▸ spelled)
  · intro color ds read wraps spelled
    rw [← spelled.digits_eq wraps]
    exact (spelled_of_ofText read).2
  · exact List.map_congr_left fun c member => if_neg fun (plus : c = '+') => plain (plus ▸ member)

-- Each pair of characters is read as a number with a sign.
theorem ofText_signed :
    (∃ color, ofText "+1+2+3" = .ok color) ∧ ¬ ∃ ds, Wraps "+1+2+3" ds ∧ SixDigits ds := by
  refine ⟨⟨⟨1, 2, 3⟩, rfl⟩, ?_⟩
  rintro ⟨ds, wraps, six⟩
  obtain ⟨spelled, plain⟩ := sixDigits_iff.1 six
  rw [← spelled.digits_eq wraps] at plain
  exact plain (by decide +kernel)

end Color

end Waterfall
