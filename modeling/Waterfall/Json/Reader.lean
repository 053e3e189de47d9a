import Waterfall.Json.Fault
import Waterfall.Json.Number

set_option autoImplicit false

namespace Waterfall

namespace Json

/-- A container that is still open, with its last item first. -/
inductive Frame where
  | array (items : List Json)
  | object (fields : List (String × Json)) (key : String)

inductive Expect where
  | value
  | item
  | itemOrClose
  | key
  | keyOrClose
  | colon
  | commaOrClose
  | done (v : Json)

inductive NumberPart where
  | minus
  | zero
  | whole
  | point
  | fraction
  | mark
  | markSign
  | exponent

/-- The token that is being read, with the characters of it in reverse. -/
inductive Mode where
  | between
  | text (done : List Char)
  | escape (done : List Char)
  -- The digits of an escape: those read, their bytes, and the first half of a pair.
  | code (done : List Char) (high : Option Nat) (digits : List Char) (bytes : Nat)
  -- Before the backslash and before the letter of the second half of a pair.
  | pairSlash (done : List Char) (high : Nat)
  | pairMark (done : List Char) (high : Nat)
  | number (part : NumberPart) (done : List Char)
  | word (rest : List Char) (v : Json)

structure Reading where
  frames : List Frame := []
  expect : Expect := .value
  mode : Mode := .between

/-- A fault lies behind the current character, before it, or so many bytes behind its start. -/
inductive Offset where
  | behind
  | before
  | bytes (n : Nat)

abbrev Step := Except (Fault × Offset) Reading

def failWith (fault : Fault) : Step := .error (fault, .behind)

def depthLimit : Nat := 127

def place (v : Json) : List Frame → Reading
  | [] => { expect := .done v }
  | .array items :: rest => { frames := .array (v :: items) :: rest, expect := .commaOrClose }
  | .object fields key :: rest =>
    { frames := .object ((key, v) :: fields) key :: rest, expect := .commaOrClose }

def placeText (s : String) (r : Reading) : Reading :=
  match r.expect, r.frames with
  | .key, .object fields _ :: rest | .keyOrClose, .object fields _ :: rest =>
    { frames := .object fields s :: rest, expect := .colon }
  | _, frames => place (.string s) frames

def openFrame (frame : Frame) (next : Expect) (r : Reading) : Step :=
  if r.frames.length < depthLimit then .ok { frames := frame :: r.frames, expect := next }
  else failWith .tooDeep

def beginValue (r : Reading) (c : Char) : Step :=
  let within (mode : Mode) : Step := .ok { r with mode := mode }
  match c with
  | 'n' => within (.word "ull".toList .null)
  | 't' => within (.word "rue".toList (.bool true))
  | 'f' => within (.word "alse".toList (.bool false))
  | '-' => within (.number .minus ['-'])
  | '0' => within (.number .zero ['0'])
  | '"' => within (.text [])
  | '[' => openFrame (.array []) .itemOrClose r
  | '{' => openFrame (.object [] "") .keyOrClose r
  | c => if c.isDigit then within (.number .whole [c]) else failWith .expectedValue

def Reading.closeFrame (r : Reading) : Reading :=
  match r.frames with
  | .array items :: rest => place (.array items.reverse) rest
  | .object fields _ :: rest => place (.object fields.reverse) rest
  | [] => r

def Reading.inArray (r : Reading) : Bool :=
  r.frames.head?.any fun frame => frame matches .array _

def afterItem (r : Reading) (c : Char) : Step :=
  if r.inArray then
    if c = ',' then .ok { r with expect := .item }
    else if c = ']' then .ok r.closeFrame
    else failWith .expectedCommaOrBracket
  else
    if c = ',' then .ok { r with expect := .key }
    else if c = '}' then .ok r.closeFrame
    else failWith .expectedCommaOrBrace

def isSpace (c : Char) : Bool :=
  c = ' ' || c = '\n' || c = '\t' || c = '\r'

def beginKey (r : Reading) (c : Char) : Step :=
  if c = '"' then .ok { r with mode := .text [] } else failWith .keyNotString

def stepBetween (r : Reading) (c : Char) : Step :=
  if isSpace c then .ok r
  else
    match r.expect with
    | .value => beginValue r c
    | .item => if c = ']' then failWith .trailingComma else beginValue r c
    | .itemOrClose => if c = ']' then .ok r.closeFrame else beginValue r c
    | .key => if c = '}' then failWith .trailingComma else beginKey r c
    | .keyOrClose => if c = '}' then .ok r.closeFrame else beginKey r c
    | .colon => if c = ':' then .ok { r with expect := .value } else failWith .expectedColon
    | .commaOrClose => afterItem r c
    | .done _ => failWith .trailingCharacters

def escaped? : Char → Option Char
  | '"' => some '"'
  | '\\' => some '\\'
  | '/' => some '/'
  | 'b' => some '\x08'
  | 'f' => some '\x0c'
  | 'n' => some '\n'
  | 'r' => some '\r'
  | 't' => some '\t'
  | _ => none

def hexValue? (c : Char) : Option Nat :=
  if '0' ≤ c ∧ c ≤ '9' then some (c.toNat - '0'.toNat)
  else if 'a' ≤ c ∧ c ≤ 'f' then some (c.toNat - 'a'.toNat + 10)
  else if 'A' ≤ c ∧ c ≤ 'F' then some (c.toNat - 'A'.toNat + 10)
  else none

def codeOf? : List Char → Option Nat
  | [d, c, b, a] => do
    return 16 * (16 * (16 * (← hexValue? a) + (← hexValue? b)) + (← hexValue? c)) + (← hexValue? d)
  | _ => none

def isHigh (n : Nat) : Bool := 0xd800 ≤ n && n < 0xdc00
def isLow (n : Nat) : Bool := 0xdc00 ≤ n && n < 0xe000

def codeMode (done : List Char) (high : Option Nat) (n : Nat) : Except Fault Mode :=
  match high with
  | none =>
    if isHigh n then .ok (.pairSlash done n)
    else if isLow n then .error .loneSurrogate
    else .ok (.text (Char.ofNat n :: done))
  | some h =>
    if isLow n then
      .ok (.text (Char.ofNat (0x10000 + (h - 0xd800) * 0x400 + (n - 0xdc00)) :: done))
    else .error .loneSurrogate

-- The digits of an escape are taken by their bytes, whatever they are, and then looked at.
def stepCode (done : List Char) (high : Option Nat) (digits : List Char) (bytes : Nat) (c : Char) :
    Except (Fault × Offset) Mode :=
  let digits := c :: digits
  let size := bytes + c.utf8Size
  if size < 4 then .ok (.code done high digits size)
  else
    match codeOf? digits with
    | none => .error (.invalidEscape, .bytes (4 - bytes))
    | some n =>
      match codeMode done high n with
      | .ok mode => .ok mode
      | .error fault => .error (fault, .behind)

def numberStep (part : NumberPart) (c : Char) : Except Fault (Option NumberPart) :=
  let isMark := c = 'e' ∨ c = 'E'
  match part with
  | .minus =>
    if c = '0' then .ok (some .zero)
    else if c.isDigit then .ok (some .whole) else .error .invalidNumber
  | .zero =>
    if c.isDigit then .error .invalidNumber
    else if c = '.' then .ok (some .point)
    else if isMark then .ok (some .mark) else .ok none
  | .whole =>
    if c.isDigit then .ok (some .whole)
    else if c = '.' then .ok (some .point)
    else if isMark then .ok (some .mark) else .ok none
  | .point => if c.isDigit then .ok (some .fraction) else .error .invalidNumber
  | .fraction =>
    if c.isDigit then .ok (some .fraction)
    else if isMark then .ok (some .mark) else .ok none
  | .mark =>
    if c.isDigit then .ok (some .exponent)
    else if c = '+' ∨ c = '-' then .ok (some .markSign) else .error .invalidNumber
  | .markSign => if c.isDigit then .ok (some .exponent) else .error .invalidNumber
  | .exponent => if c.isDigit then .ok (some .exponent) else .ok none

-- An exponent past all bounds makes a number too large as soon as it gets there.
def overflows (part : NumberPart) (done : List Char) : Bool :=
  match part with
  | .exponent => exponentOverflows done.reverse
  | _ => false

def endNumber (r : Reading) (done : List Char) : Step :=
  match numberOf? done.reverse with
  | some v => .ok (place v r.frames)
  | none => .error (.numberOutOfRange, .before)

def stepNumber (r : Reading) (part : NumberPart) (done : List Char) (c : Char) : Step :=
  match numberStep part c with
  | .error fault => failWith fault
  | .ok (some next) =>
    if overflows next (c :: done) then failWith .numberOutOfRange
    else .ok { r with mode := .number next (c :: done) }
  | .ok none =>
    match endNumber r done with
    | .ok next => stepBetween next c
    | .error e => .error e

def step (r : Reading) (c : Char) : Step :=
  let within (mode : Mode) : Step := .ok { r with mode := mode }
  match r.mode with
  | .between => stepBetween r c
  | .text done =>
    if c = '"' then .ok (placeText (String.ofList done.reverse) r)
    else if c = '\\' then within (.escape done)
    else if c < ' ' then failWith .controlCharacter
    else within (.text (c :: done))
  | .escape done =>
    if c = 'u' then within (.code done none [] 0)
    else
      match escaped? c with
      | some e => within (.text (e :: done))
      | none => failWith .invalidEscape
  | .code done high digits bytes =>
    match stepCode done high digits bytes c with
    | .ok mode => within mode
    | .error e => .error e
  | .pairSlash done high =>
    if c = '\\' then within (.pairMark done high) else failWith .endOfHexEscape
  | .pairMark done high =>
    if c = 'u' then within (.code done (some high) [] 0) else failWith .endOfHexEscape
  | .number part done => stepNumber r part done c
  | .word rest v =>
    match rest with
    | [] => stepBetween (place v r.frames) c
    | d :: rest =>
      if c = d then
        if rest = [] then .ok (place v r.frames) else within (.word rest v)
      else failWith .expectedWord

def endBetween (r : Reading) : Except Fault Json :=
  match r.expect with
  | .done v => .ok v
  | .value | .item | .key => .error .endInValue
  | .itemOrClose => .error .endInList
  | .keyOrClose | .colon => .error .endInObject
  | .commaOrClose => .error (if r.inArray then .endInList else .endInObject)

def finish (r : Reading) : Except Fault Json :=
  match r.mode with
  | .between => endBetween r
  | .number .minus _ | .number .point _ | .number .mark _ | .number .markSign _ =>
    .error .endInValue
  | .number _ done =>
    match endNumber r done with
    | .ok next => endBetween next
    | .error (fault, _) => .error fault
  | .word _ _ => .error .endInValue
  | _ => .error .endInString

def run (r : Reading) (byte : Nat) : List Char → Except (Fault × Nat) Json
  | [] =>
    match finish r with
    | .ok v => .ok v
    | .error fault => .error (fault, byte)
  | c :: rest =>
    match step r c with
    | .ok next => run next (byte + c.utf8Size) rest
    | .error (fault, .behind) => .error (fault, byte + 1)
    | .error (fault, .before) => .error (fault, byte)
    | .error (fault, .bytes n) => .error (fault, byte + n)

def locate (line column : Nat) (byte : Nat) : List Char → Nat × Nat
  | [] => (line, column + byte)
  | c :: rest =>
    if byte < c.utf8Size then (line, column + byte)
    else if c = '\n' then locate (line + 1) 0 (byte - 1) rest
    else locate line (column + c.utf8Size) (byte - c.utf8Size) rest

def read (s : String) : Except ReadFault Json :=
  match run {} 0 s.toList with
  | .ok v => .ok v
  | .error (fault, byte) =>
    let (line, column) := locate 1 0 byte s.toList
    .error ⟨fault, line, column⟩

def parse (s : String) : Except ReadFault Json :=
  (read s).map sorted

def parse? (s : String) : Option Json :=
  (parse s).toOption

end Json

end Waterfall
