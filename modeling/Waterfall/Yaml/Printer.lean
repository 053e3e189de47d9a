import Waterfall.Json.Printer
import Waterfall.Yaml.Scalar

set_option autoImplicit false

namespace Waterfall

namespace Yaml

def word (s : String) : Yaml := .scalar s true

def ofBool (b : Bool) : Yaml := word (if b then "true" else "false")

def null : Yaml := word "null"

def ofNat (n : Nat) : Yaml := word (toString n)

def ofFloat (x : Float) : Yaml :=
  word (if x.isNaN then ".nan" else if x.isFinite then Json.floatForm x
    else if x < 0 then "-.inf" else ".inf")

def ofFloat32 (x : Float32) : Yaml :=
  word (if x.isNaN then ".nan" else if x.isFinite then Json.singleForm x
    else if x < 0 then "-.inf" else ".inf")

def ofString (s : String) : Yaml := .scalar s false

def ofOption {α : Type} (f : α → Yaml) : Option α → Yaml
  | none => null
  | some a => f a

-- Words that older readers take for truth values.
def oldBools : List String :=
  ["y", "Y", "yes", "Yes", "YES", "n", "N", "no", "No", "NO", "on", "On", "ON", "off", "Off", "OFF"]

def isAmbiguous (s : String) : Bool :=
  let plain := word s
  let unsigned := match s.toList with
    | '-' :: rest => String.ofList rest
    | '+' :: rest => String.ofList rest
    | _ => s
  s ∈ oldBools || plain.isNull || plain.bool?.isSome || plain.float?.isSome
    || (natOfPlain? unsigned).isSome || paddedDigits unsigned.toList

def isWritable (c : Char) : Bool :=
  let n := c.toNat
  n = 10 || (0x20 ≤ n && n ≤ 0x7e)
    || (0xa0 ≤ n && n ≤ 0xffff && n ≠ 0xfeff && n ≠ 0xfffe && n ≠ 0xffff)

def hasPair (p q : Char → Bool) (cs : List Char) : Bool :=
  (cs.zip cs.tail).any fun (a, b) => p a && q b

def isPlainText (s : String) : Bool :=
  let cs := s.toList
  let blank (c : Char) : Bool := c = ' '
  beginsPlain false cs && cs.getLast?.all (fun c => !blank c && c ≠ ':')
    && !(s.startsWith "---") && !(s.startsWith "...")
    && !hasPair (· = ':') blank cs && !hasPair blank (· = '#') cs
    && cs.all fun c => isWritable c && c ≠ '\n'

def singleQuote (s : String) : String :=
  String.ofList ('\'' :: s.toList.flatMap (fun c => if c = '\'' then ['\'', '\''] else [c]) ++ ['\''])

def hexText (width n : Nat) : List Char :=
  let digits := Nat.toDigits 16 n
  (List.replicate (width - digits.length) '0' ++ digits).map Char.toUpper

def escapeChar (c : Char) : List Char :=
  match c with
  | '\x00' => ['\\', '0']
  | '\x07' => ['\\', 'a']
  | '\x08' => ['\\', 'b']
  | '\t' => ['\\', 't']
  | '\n' => ['\\', 'n']
  | '\x0b' => ['\\', 'v']
  | '\x0c' => ['\\', 'f']
  | '\r' => ['\\', 'r']
  | '\x1b' => ['\\', 'e']
  | '"' => ['\\', '"']
  | '\\' => ['\\', '\\']
  | '\u0085' => ['\\', 'N']
  | '\u2028' => ['\\', 'L']
  | '\u2029' => ['\\', 'P']
  | c =>
    if isWritable c then [c]
    else if c.toNat < 0x100 then '\\' :: 'x' :: hexText 2 c.toNat
    else if c.toNat < 0x10000 then '\\' :: 'u' :: hexText 4 c.toNat
    else '\\' :: 'U' :: hexText 8 c.toNat

def doubleQuote (s : String) : String :=
  String.ofList ('"' :: s.toList.flatMap escapeChar ++ ['"'])

def textForm (s : String) : String :=
  if s.toList.any (fun c => !isWritable c || c = '\n') then doubleQuote s
  else if isAmbiguous s || !isPlainText s then singleQuote s
  else s

def spaces (n : Nat) : String :=
  String.ofList (List.replicate n ' ')

def literalForm (indent : Nat) (s : String) : String :=
  let cs := s.toList
  let hint := if cs.head? = some ' ' ∨ cs.head? = some '\n' then "2" else ""
  let ending :=
    match cs.reverse with
    | '\n' :: '\n' :: _ => "+"
    | ['\n'] => "+"
    | '\n' :: _ => ""
    | _ => "-"
  let body := if cs.getLast? = some '\n' then String.ofList cs.dropLast else s
  let line (l : String) : String := if l = "" then "\n" else "\n" ++ spaces indent ++ l
  "|" ++ hint ++ ending ++ String.join ((body.splitOn "\n").map line)

def isLiteralText (s : String) : Bool :=
  let cs := s.toList
  cs.any (· = '\n') && cs.all isWritable && cs.getLast? ≠ some ' '
    && !hasPair (· = ' ') (· = '\n') cs

def scalarForm (indent : Nat) (s : String) (plain : Bool) : String :=
  if plain then s
  else if isLiteralText s then literalForm indent s
  else textForm s

mutual

def valueForm (indent : Nat) : Yaml → String
  | .scalar s plain => " " ++ scalarForm (indent + 2) s plain ++ "\n"
  | .sequence [] => " []\n"
  | .sequence items => "\n" ++ itemForms indent items
  | .mapping [] => " \x7b\x7d\n"
  | .mapping entries => "\n" ++ entryForms (indent + 2) entries

def itemForms (indent : Nat) : List Yaml → String
  | [] => ""
  | v :: rest => spaces indent ++ "-" ++ valueForm indent v ++ itemForms indent rest

def entryForms (indent : Nat) : List (Yaml × Yaml) → String
  | [] => ""
  | (k, v) :: rest =>
    spaces indent ++ textForm (k.text?.getD "") ++ ":" ++ valueForm indent v
      ++ entryForms indent rest

end

def text : Yaml → String
  | .mapping entries => entryForms 0 entries
  | y => valueForm 0 y

end Yaml

end Waterfall
