import Waterfall.Yaml.Number

set_option autoImplicit false

namespace Waterfall

namespace Yaml

def isSpace (c : Char) : Bool :=
  c = ' ' || c = '\t'

def isSpent (afterBlank : Bool) : List Char → Bool
  | [] => true
  | '#' :: _ => afterBlank
  | c :: rest => isSpace c && isSpent true rest

def singleQuoted? (done : List Char) : List Char → Option (String × List Char)
  | [] => none
  | '\'' :: '\'' :: rest => singleQuoted? ('\'' :: done) rest
  | '\'' :: rest => some (String.ofList done.reverse, rest)
  | c :: rest => singleQuoted? (c :: done) rest

inductive Escape where
  | outside
  | letter
  | code (digits value : Nat)

def codeDigits? : Char → Option Nat
  | 'x' => some 2
  | 'u' => some 4
  | 'U' => some 8
  | _ => none

def escaped? : Char → Option Char
  | '0' => some '\x00'
  | 'a' => some '\x07'
  | 'b' => some '\x08'
  | 't' | '\t' => some '\t'
  | 'n' => some '\n'
  | 'v' => some '\x0b'
  | 'f' => some '\x0c'
  | 'r' => some '\r'
  | 'e' => some '\x1b'
  | ' ' => some ' '
  | '"' => some '"'
  | '/' => some '/'
  | '\\' => some '\\'
  | 'N' => some '\u0085'
  | '_' => some '\u00a0'
  | 'L' => some '\u2028'
  | 'P' => some '\u2029'
  | _ => none

def charOf? (n : Nat) : Option Char :=
  if n.isValidChar then some (Char.ofNat n) else none

def doubleQuoted? (done : List Char) : Escape → List Char → Option (String × List Char)
  | _, [] => none
  | .outside, c :: rest =>
    if c = '"' then some (String.ofList done.reverse, rest)
    else if c = '\\' then doubleQuoted? done .letter rest
    else doubleQuoted? (c :: done) .outside rest
  | .letter, c :: rest =>
    match codeDigits? c, escaped? c with
    | some n, _ => doubleQuoted? done (.code n 0) rest
    | none, some e => doubleQuoted? (e :: done) .outside rest
    | none, none => none
  | .code n value, c :: rest =>
    match digitOf? 16 c with
    | none => none
    | some d =>
      let value := 16 * value + d
      if 1 < n then doubleQuoted? done (.code (n - 1) value) rest
      else
        match charOf? value with
        | some e => doubleQuoted? (e :: done) .outside rest
        | none => none

def isBracket (c : Char) : Bool :=
  c ∈ [',', '[', ']', '{', '}']

-- A scalar without quotes ends at a colon with a blank behind it and before a comment; within
-- brackets also at those.
def plainPart (inFlow : Bool) : List Char → List Char × List Char
  | [] => ([], [])
  | c :: rest =>
    let ends :=
      if c = ':' then
        match rest with
        | [] => true
        | next :: _ => isSpace next || (inFlow && isBracket next)
      else (inFlow && isBracket c) || (isSpace c && rest.head? = some '#')
    if ends then ([], c :: rest)
    else
      let (text, tail) := plainPart inFlow rest
      (c :: text, tail)

def trimSpaces (cs : List Char) : List Char :=
  ((cs.dropWhile isSpace).reverse.dropWhile isSpace).reverse

def beginsPlain (inFlow : Bool) : List Char → Bool
  | [] => false
  | c :: rest =>
    if c = '-' ∨ c = '?' ∨ c = ':' then
      rest.head?.any fun next => !isSpace next && !(inFlow && isBracket next)
    else !isSpace c && !isBracket c && c ∉ "#&*!|>'\"%@`".toList

def scalar? (inFlow : Bool) : List Char → Option (Yaml × List Char)
  | '\'' :: rest => (singleQuoted? [] rest).map fun (s, tail) => (.scalar s false, tail)
  | '"' :: rest => (doubleQuoted? [] .outside rest).map fun (s, tail) => (.scalar s false, tail)
  | cs =>
    if beginsPlain inFlow cs then
      let (text, tail) := plainPart inFlow cs
      some (.scalar (String.ofList (trimSpaces text)) true, tail)
    else none

end Yaml

end Waterfall
