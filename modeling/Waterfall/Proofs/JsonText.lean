import Mathlib.Data.List.Basic
import Waterfall.Json.Printer
import Waterfall.Json.Reader
import Waterfall.Proofs.Numerals

set_option autoImplicit false

namespace Waterfall

namespace Json

/-- Where the reader stands behind these characters, unless one of them is a fault. -/
def feed (r : Reading) (cs : List Char) : Option Reading :=
  cs.foldlM (fun r c => (step r c).toOption) r

@[simp] theorem feed_nil (r : Reading) : feed r [] = some r := rfl

theorem feed_cons (r : Reading) (c : Char) (cs : List Char) :
    feed r (c :: cs) = (step r c).toOption.bind fun next => feed next cs :=
  List.foldlM_cons

theorem feed_append (r : Reading) (cs cs' : List Char) :
    feed r (cs ++ cs') = (feed r cs).bind fun next => feed next cs' :=
  List.foldlM_append

theorem feed_cons_of_step {r next : Reading} {c : Char} (h : step r c = .ok next) (cs : List Char) :
    feed r (c :: cs) = feed next cs := by
  rw [feed_cons, h]
  rfl

theorem feed_append_of_feed {r next : Reading} {cs : List Char} (h : feed r cs = some next)
    (cs' : List Char) : feed r (cs ++ cs') = feed next cs' := by
  rw [feed_append, h]
  rfl

theorem toOption_run (r : Reading) (byte : Nat) (cs : List Char) :
    (run r byte cs).toOption = (feed r cs).bind fun last => (finish last).toOption := by
  induction cs generalizing r byte with
  | nil =>
    rw [run, feed_nil, Option.bind_some]
    cases finish r <;> rfl
  | cons c rest ih =>
    rw [run, feed_cons]
    cases step r c with
    | ok next => exact ih next _
    | error e =>
      obtain ⟨fault, offset⟩ := e
      cases offset <;> rfl

theorem toOption_read (s : String) :
    (read s).toOption = (feed {} s.toList).bind fun last => (finish last).toOption := by
  rw [← toOption_run {} 0, read]
  cases run {} 0 s.toList <;> rfl

theorem feed_control (r : Reading) (done : List Char) {c : Char} (control : c < ' ') :
    feed { r with mode := .text done }
        ['\\', 'u', '0', '0', hexDigit (c.toNat / 16), hexDigit (c.toNat % 16)] =
      some { r with mode := .text (c :: done) } := by
  have small : c.toNat < 32 := control
  have digits : ∀ n < 32,
      (hexDigit (n / 16)).utf8Size = 1 ∧ (hexDigit (n % 16)).utf8Size = 1 ∧
        codeOf? [hexDigit (n % 16), hexDigit (n / 16), '0', '0'] = some n ∧
        isHigh n = false ∧ isLow n = false := by
    decide
  obtain ⟨first, second, code, high, low⟩ := digits _ small
  have zero : '0'.utf8Size = 1 := by decide
  have back : Char.ofNat c.toNat = c := Char.ofNat_toNat c
  simp [feed_cons, step, stepCode, codeMode, first, second, zero, code, high, low, back, Except.toOption]

theorem feed_escape (r : Reading) (done : List Char) (c : Char) :
    feed { r with mode := .text done } (escape c) = some { r with mode := .text (c :: done) } := by
  unfold escape
  split
  case h_8 quote slash _ _ _ _ _ =>
    split
    next control => exact feed_control r done control
    next plain =>
      have other : ¬ c = '"' ∧ ¬ c = '\\' := ⟨quote, slash⟩
      simp [feed_cons, step, plain, Except.toOption, other]
  all_goals rfl

theorem feed_escapes (r : Reading) (done cs : List Char) :
    feed { r with mode := .text done } (cs.flatMap escape) =
      some { r with mode := .text (cs.reverse ++ done) } := by
  induction cs generalizing done with
  | nil => rfl
  | cons c rest ih =>
    rw [List.flatMap_cons, feed_append_of_feed (feed_escape r done c), ih]
    simp

def Expect.TakesKey : Expect → Prop
  | .key | .keyOrClose => True
  | _ => False

theorem feed_quote {frames : List Frame} {done : List (String × Json)} {key : String} {expect : Expect}
    (due : expect.TakesKey) (k : String) :
    feed ⟨.object done key :: frames, expect, .between⟩ (quote k).toList =
      some ⟨.object done k :: frames, .colon, .between⟩ := by
  have opened : step ⟨.object done key :: frames, expect, .between⟩ '"' =
      .ok ⟨.object done key :: frames, expect, .text []⟩ := by
    cases expect <;> first | exact due.elim | rfl
  have closed : step ⟨.object done key :: frames, expect, .text k.toList.reverse⟩ '"' =
      .ok ⟨.object done k :: frames, .colon, .between⟩ := by
    have same : String.ofList k.toList.reverse.reverse = k := by simp
    change Except.ok (placeText (String.ofList k.toList.reverse.reverse) _) = _
    rw [same]
    cases expect <;> first | exact due.elim | rfl
  have escapes := feed_escapes ⟨.object done key :: frames, expect, .between⟩ [] k.toList
  rw [List.append_nil] at escapes
  rw [quote, String.toList_ofList, List.cons_append, feed_cons_of_step opened,
    feed_append_of_feed escapes, feed_cons_of_step closed, feed_nil]

/-- Where a value is due and so many more containers may be opened, the text is read as this value, as far as
it goes up to a character that may follow a value. -/
def Holds (room : Nat) (cs : List Char) (v : Json) : Prop :=
  ∀ frames : List Frame, frames.length + room ≤ depthLimit → ∀ c ∈ [',', '\n'], ∀ rest,
    feed { frames := frames } (cs ++ c :: rest) = feed (place v frames) (c :: rest)

theorem holds_null : Holds 0 "null".toList .null := by
  intro frames _ c _ rest
  rfl

def isNumeral (c : Char) : Bool :=
  c.isDigit || c = '.' || c = '-' || c = 'e'

theorem common_isNumeral : Decimal.Common (isNumeral · = true) :=
  ⟨fun c digit => by simp [isNumeral, digit], by decide, by decide⟩

theorem isSpace_of_isNumeral {c : Char} (h : isNumeral c) : isSpace c = false := by
  have other (d : Char) (blank : isNumeral d = false) : c ≠ d := by
    rintro rfl
    exact absurd h (by simp [blank])
  simp [isSpace, other ' ' rfl, other '\n' rfl, other '\t' rfl, other '\r' rfl]

@[simp] theorem mode_place (v : Json) (frames : List Frame) : (place v frames).mode = .between := by
  cases frames with
  | nil => rfl
  | cons frame rest => cases frame <;> rfl

-- A numeral that is a whole text begins as it does wherever a value is due.
theorem begin_numeral {c : Char} (numeral : isNumeral c) {next : Reading} (h : step {} c = .ok next) :
    ∃ part, ∀ frames, step { frames := frames } c =
      .ok { frames := frames, mode := .number part [c] } := by
  have between (frames : List Frame) : step { frames := frames } c = beginValue { frames := frames } c := by
    change stepBetween _ c = _
    rw [stepBetween, if_neg (by simp [isSpace_of_isNumeral numeral])]
  simp only [between] at h ⊢
  unfold beginValue at h ⊢
  dsimp only at h ⊢
  split at h
  case h_9 =>
    split at h
    next digit => exact ⟨.whole, fun frames => if_pos digit⟩
    next => cases h
  all_goals first
    | exact absurd numeral (by decide)
    | exact ⟨_, fun _ => rfl⟩

-- Behind a number that is a whole text there are only blanks.
theorem go_on_numeral {part : NumberPart} {done : List Char} {c : Char} (numeral : isNumeral c)
    {next : Reading} (h : step { mode := .number part done } c = .ok next) :
    ∃ part', ∀ frames, step { frames := frames, mode := .number part done } c =
      .ok { frames := frames, mode := .number part' (c :: done) } := by
  change stepNumber _ part done c = _ at h
  change ∃ part', ∀ frames, stepNumber _ part done c = _
  unfold stepNumber at h ⊢
  cases grown : numberStep part c with
  | error fault => simp [grown, failWith] at h
  | ok more =>
    cases more with
    | some part' =>
      simp only [grown] at h ⊢
      split at h
      next => cases h
      next small => exact ⟨part', fun frames => if_neg small⟩
    | none =>
      simp only [grown, endNumber] at h
      cases number : numberOf? done.reverse with
      | none => simp [number] at h
      | some v => simp [number, place, stepBetween, isSpace_of_isNumeral numeral, failWith] at h

theorem feed_number {part : NumberPart} {done cs : List Char} (numeral : ∀ c ∈ cs, isNumeral c)
    {last : Reading} (h : feed { mode := .number part done } cs = some last) :
    ∃ part', ∀ frames, feed { frames := frames, mode := .number part done } cs =
      some { frames := frames, mode := .number part' (cs.reverse ++ done) } := by
  induction cs generalizing part done with
  | nil => exact ⟨part, fun _ => rfl⟩
  | cons c rest ih =>
    obtain ⟨first, others⟩ := List.forall_mem_cons.1 numeral
    rw [feed_cons] at h
    cases stepped : step { mode := .number part done } c with
    | error e => simp [stepped, Except.toOption] at h
    | ok next =>
      obtain ⟨part', same⟩ := go_on_numeral first stepped
      rw [same []] at h
      obtain ⟨part'', same'⟩ := ih others h
      refine ⟨part'', fun frames => ?_⟩
      rw [feed_cons_of_step (same frames), same' frames]
      simp

-- Both characters that may follow a value end every number that the end of a text may end.
theorem end_number {part : NumberPart} {done : List Char} {v : Json}
    (h : (finish { mode := .number part done }).toOption = some v) (frames : List Frame) {c : Char}
    (following : c ∈ [',', '\n']) :
    step { frames := frames, mode := .number part done } c = step (place v frames) c := by
  have ends : numberStep part ',' = .ok none ∧ numberStep part '\n' = .ok none ∧
      numberOf? done.reverse = some v := by
    cases part
    case minus | point | mark | markSign => simp [finish, Except.toOption] at h
    all_goals
      refine ⟨rfl, rfl, ?_⟩
      simp only [finish, endNumber] at h
      cases number : numberOf? done.reverse with
      | none => simp [number, Except.toOption] at h
      | some w => simpa [number, place, endBetween, Except.toOption] using h
  obtain ⟨comma, newline, number⟩ := ends
  have closes : numberStep part c = .ok none := by
    simp only [List.mem_cons, List.not_mem_nil, or_false] at following
    obtain rfl | rfl := following
    · exact comma
    · exact newline
  have between : step (place v frames) c = stepBetween (place v frames) c := by
    rw [step, mode_place]
  rw [between]
  simp [step, stepNumber, closes, endNumber, number]

theorem holds_numeral {s : String} (numeral : ∀ c ∈ s.toList, isNumeral c) {v : Json}
    (h : (read s).toOption = some v) : Holds 0 s.toList v := by
  intro frames _ c following rest
  rw [toOption_read] at h
  obtain ⟨last, fed, finished⟩ := Option.bind_eq_some_iff.1 h
  cases cs : s.toList with
  | nil =>
    rw [cs] at fed
    cases fed
    simp [finish, endBetween, Except.toOption] at finished
  | cons d ds =>
    rw [cs] at fed numeral
    obtain ⟨first, others⟩ := List.forall_mem_cons.1 numeral
    rw [feed_cons] at fed
    obtain ⟨next, stepped, fed⟩ := Option.bind_eq_some_iff.1 fed
    cases begun : step {} d with
    | error e => simp [begun, Except.toOption] at stepped
    | ok _ =>
      obtain ⟨part, same⟩ := begin_numeral first begun
      rw [same [], Except.toOption, Option.some.injEq] at stepped
      subst stepped
      obtain ⟨part', same'⟩ := feed_number others fed
      rw [same' [], Option.some.injEq] at fed
      subst fed
      rw [List.cons_append, feed_cons_of_step (same frames), feed_append_of_feed (same' frames), feed_cons,
        feed_cons, end_number finished frames following]

-- A number in single precision becomes whatever its text stands for.
def reread : Json → Json
  | .single x => (read (singleForm x)).toOption.getD .null
  | j => j

theorem isNumeral_singleForm {x : Float32} (finite : x.isFinite)
    (read : (read (singleForm x)).toOption.isSome) :
    ∀ c ∈ (singleForm x).toList, isNumeral c := by
  rw [singleForm, if_pos finite] at read ⊢
  cases form : Binary.ofFloat32 x with
  | nan => exact absurd (form ▸ read) (by decide)
  | infinite negative =>
    rw [form] at read
    cases negative <;> exact absurd read (by decide)
  | finite negative m q =>
    exact common_isNumeral.finite _ (forall_of_all (by decide)) (.inr (by decide)) _ negative m q

theorem holds_single {x : Float32} (readable : x.isFinite → (read (singleForm x)).toOption.isSome) :
    Holds 0 (singleForm x).toList (reread (.single x)) := by
  by_cases finite : x.isFinite
  · obtain ⟨v, some⟩ := Option.isSome_iff_exists.1 (readable finite)
    have numeral := isNumeral_singleForm finite (readable finite)
    rw [reread, some]
    exact holds_numeral numeral some
  · have null : singleForm x = "null" := if_neg finite
    rw [reread, null]
    exact holds_null

theorem feed_newline (frames : List Frame) (expect : Expect) (depth : Nat) :
    feed ⟨frames, expect, .between⟩ (newline depth).toList = some ⟨frames, expect, .between⟩ := by
  have spaces (n : Nat) : feed ⟨frames, expect, .between⟩ (List.replicate n ' ') =
      some ⟨frames, expect, .between⟩ := by
    induction n with
    | zero => rfl
    | succ n ih => exact (feed_cons_of_step rfl _).trans ih
  rw [newline, String.toList_ofList]
  exact (feed_cons_of_step rfl _).trans (spaces _)

theorem feed_field {room : Nat} {text : String} {v : Json} (holds : Holds room text.toList v)
    {frames : List Frame} (fits : frames.length + (room + 1) ≤ depthLimit) {done : List (String × Json)}
    {key : String} {expect : Expect} (due : expect.TakesKey) (k : String) {c : Char}
    (following : c ∈ [',', '\n']) (rest : List Char) :
    feed ⟨.object done key :: frames, expect, .between⟩ ((quote k ++ ": " ++ text).toList ++ c :: rest) =
      feed ⟨.object ((k, v) :: done) k :: frames, .commaOrClose, .between⟩ (c :: rest) := by
  have colon : feed ⟨.object done k :: frames, .colon, .between⟩ ": ".toList =
      some { frames := .object done k :: frames } := rfl
  have value := holds (.object done k :: frames) (by simp only [List.length_cons]; omega) c following rest
  rw [String.toList_append, String.toList_append, List.append_assoc, List.append_assoc,
    feed_append_of_feed (feed_quote due k), feed_append_of_feed colon, value, place]

theorem feed_fields {room depth : Nat} {back : Json → Json} {frames : List Frame}
    (fits : frames.length + (room + 1) ≤ depthLimit) (k : String) (v : Json)
    (fields : List (String × Json))
    (holds : ∀ field ∈ (k, v) :: fields, Holds room (prettyAt (depth + 1) field.2).toList (back field.2))
    (done : List (String × Json)) (key : String) {expect : Expect} (due : expect.TakesKey) :
    feed ⟨.object done key :: frames, expect, .between⟩
        ((("," ++ newline (depth + 1)).intercalate (prettyFields depth ((k, v) :: fields))).toList ++
          (newline depth ++ "\x7d").toList) =
      some (place (.object (done.reverse ++ ((k, v) :: fields).map fun field => (field.1, back field.2)))
        frames) := by
  induction fields generalizing k v done key expect with
  | nil =>
    have first := holds (k, v) List.mem_cons_self
    have start : (newline depth ++ "\x7d").toList = '\n' :: (List.replicate (2 * depth) ' ' ++ ['}']) := by
      simp [newline]
    have text : String.intercalate ("," ++ newline (depth + 1)) (prettyFields depth [(k, v)]) =
        quote k ++ ": " ++ prettyAt (depth + 1) v := by
      simp [prettyFields]
    rw [text, start, feed_field first fits due k (by simp), ← start, String.toList_append,
      feed_append_of_feed (feed_newline _ _ _)]
    change some (place (.object ((k, back v) :: done).reverse) frames) = _
    simp
  | cons field fields ih =>
    obtain ⟨k', v'⟩ := field
    obtain ⟨first, others⟩ := List.forall_mem_cons.1 holds
    have comma (next : String) : ("," ++ newline (depth + 1) ++ next).toList =
        ',' :: ((newline (depth + 1)).toList ++ next.toList) := by
      simp
    have behind : step ⟨.object ((k, back v) :: done) k :: frames, .commaOrClose, .between⟩ ',' =
        .ok ⟨.object ((k, back v) :: done) k :: frames, .key, .between⟩ := rfl
    have key : Expect.key.TakesKey := trivial
    have more := ih k' v' others ((k, back v) :: done) k key
    have text : String.intercalate ("," ++ newline (depth + 1))
        (prettyFields depth ((k, v) :: (k', v') :: fields)) =
        quote k ++ ": " ++ prettyAt (depth + 1) v ++ ("," ++ newline (depth + 1) ++
          String.intercalate ("," ++ newline (depth + 1)) (prettyFields depth ((k', v') :: fields))) := by
      simp [prettyFields, String.append_assoc]
    rw [text, String.toList_append, List.append_assoc, comma, List.cons_append,
      feed_field first fits due k (by simp), feed_cons_of_step behind, List.append_assoc,
      feed_append_of_feed (feed_newline _ _ _), more]
    simp

-- The values of an object's own fields.
def eachField (back : Json → Json) : Json → Json
  | .object fields => .object (fields.map fun field => (field.1, back field.2))
  | j => j

theorem feed_object {room depth : Nat} {back : Json → Json} {fields : List (String × Json)}
    (holds : ∀ field ∈ fields, Holds room (prettyAt (depth + 1) field.2).toList (back field.2))
    {frames : List Frame} (fits : frames.length + (room + 1) ≤ depthLimit) :
    feed { frames := frames } (prettyAt depth (.object fields)).toList =
      some (place (eachField back (.object fields)) frames) := by
  have opened : step { frames := frames } '\x7b' = .ok ⟨.object [] "" :: frames, .keyOrClose, .between⟩ :=
    if_pos (by dsimp only; omega)
  cases fields with
  | nil =>
    have text : (prettyAt depth (.object [])).toList = ['\x7b', '\x7d'] := by
      simp [prettyAt, block, prettyFields]
    rw [text, feed_cons_of_step opened]
    rfl
  | cons field fields =>
    obtain ⟨k, v⟩ := field
    have keyOrClose : Expect.keyOrClose.TakesKey := trivial
    have text : (prettyAt depth (.object ((k, v) :: fields))).toList =
        '\x7b' :: ((newline (depth + 1)).toList ++
          ((("," ++ newline (depth + 1)).intercalate (prettyFields depth ((k, v) :: fields))).toList ++
            (newline depth ++ "\x7d").toList)) := by
      simp [prettyAt, block, prettyFields]
    rw [text, feed_cons_of_step opened, feed_append_of_feed (feed_newline _ _ _),
      feed_fields fits k v fields holds [] "" keyOrClose]
    rfl

theorem holds_object {room depth : Nat} {back : Json → Json} {fields : List (String × Json)}
    (holds : ∀ field ∈ fields, Holds room (prettyAt (depth + 1) field.2).toList (back field.2)) :
    Holds (room + 1) (prettyAt depth (.object fields)).toList (eachField back (.object fields)) :=
  fun _ fits _ _ _ => feed_append_of_feed (feed_object holds fits) _

theorem read_object {room : Nat} {back : Json → Json} {fields : List (String × Json)}
    (holds : ∀ field ∈ fields, Holds room (prettyAt 1 field.2).toList (back field.2))
    (fits : room < depthLimit) :
    (read (Json.object fields).pretty).toOption = some (eachField back (.object fields)) := by
  rw [toOption_read, pretty, feed_object holds (by rw [List.length_nil]; omega)]
  rfl

end Json

end Waterfall
