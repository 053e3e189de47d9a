import Waterfall.Yaml.Flow

set_option autoImplicit false

namespace Waterfall

namespace Yaml

inductive Content where
  | nothing
  | entry (key : Yaml) (behind : List Char)
  | value (v : Yaml)

def behindColon? (cs : List Char) : Option (List Char) :=
  match cs.dropWhile isSpace with
  | [':'] => some []
  | ':' :: c :: rest => if isSpace c then some (c :: rest) else none
  | _ => none

def Content.ofChars? (cs : List Char) : Option Content :=
  if isSpent true cs then some .nothing
  else
    let collection := cs.head? = some '[' || cs.head? = some '{'
    (if collection then flow? cs else scalar? false cs).bind fun (v, tail) =>
      match behindColon? tail with
      | some behind => if collection then none else some (.entry v behind)
      | none => if isSpent false tail then some (.value v) else none

def valueBehind? (cs : List Char) : Option (Option Yaml) :=
  match Content.ofChars? (cs.dropWhile isSpace) with
  | some .nothing => some none
  | some (.value v) => some (some v)
  | _ => none

structure Line where
  dashes : List Nat
  column : Nat
  text : List Char

namespace Line

def ofChars? (column : Nat) : List Char → Option Line
  | ' ' :: rest => ofChars? (column + 1) rest
  | '\t' :: rest => if isSpent true rest then some ⟨[], column, []⟩ else none
  | ['-'] => some ⟨[column], column + 1, []⟩
  | '-' :: ' ' :: rest =>
    (ofChars? (column + 2) rest).map fun l => { l with dashes := column :: l.dashes }
  | cs => some ⟨[], column, cs⟩

def indent (l : Line) : Nat :=
  l.dashes.headD l.column

end Line

inductive Block where
  | sequence (indent : Nat) (items : List Yaml)
  | mapping (indent : Nat) (entries : List (Yaml × Yaml)) (key : Yaml)

namespace Block

def indent : Block → Nat
  | .sequence n _ => n
  | .mapping n _ _ => n

def toYaml (value : Option Yaml) : Block → Yaml
  | .sequence _ items => .sequence (value.getD nothing :: items).reverse
  | .mapping _ entries key => .mapping ((key, value.getD nothing) :: entries).reverse

end Block

structure Reading where
  blocks : List Block := []
  value : Option Yaml := none
  -- The value is a plain scalar that the next line may continue.
  folds : Bool := false
  gap : Nat := 0
  started : Bool := false
  ended : Bool := false

namespace Reading

def put (r : Reading) (value : Option Yaml) : Reading :=
  { r with value := value, folds := value.any (·.plainText?.isSome), gap := 0 }

def close (indent : Nat) (value : Option Yaml) : List Block → Option Yaml × List Block
  | [] => (value, [])
  | b :: rest =>
    if indent < b.indent then close indent (some (b.toYaml value)) rest else (value, b :: rest)

def openSequences (columns : List Nat) (r : Reading) : Reading :=
  { r with blocks := (columns.map fun n => .sequence n []).reverse ++ r.blocks, value := none }

def content? (r : Reading) (column : Nat) : Content → Option Reading
  | .nothing => some (r.put none)
  | .entry key behind =>
    (valueBehind? behind).map fun value =>
      { r with blocks := .mapping column [] key :: r.blocks }.put value
  | .value v => some (r.put (some v))

def begin? (r : Reading) (l : Line) : Option Reading :=
  (Content.ofChars? l.text).bind fun content =>
    (openSequences l.dashes r).content? l.column content

def item? (r : Reading) (l : Line) (indent : Nat) (items : List Yaml) (rest : List Block) :
    Option Reading :=
  let items := r.value.getD nothing :: items
  { r with blocks := .sequence indent items :: rest, value := none }.begin?
    { l with dashes := l.dashes.tail }

def pair? (r : Reading) (l : Line) (indent : Nat) (entries : List (Yaml × Yaml)) (key : Yaml)
    (rest : List Block) : Option Reading :=
  match Content.ofChars? l.text with
  | some (.entry next behind) =>
    (valueBehind? behind).map fun value =>
      { r with blocks := .mapping indent ((key, r.value.getD nothing) :: entries) next :: rest }.put
        value
  | _ => none

-- A line that is indented like the innermost block, or by more. A sequence may be indented like the
-- mapping that it is in.
def within? (r : Reading) (l : Line) : Option Reading :=
  match r.blocks with
  | [] => if r.value.isNone then r.begin? l else none
  | .sequence n items :: rest =>
    if n < l.indent then (if r.value.isNone then r.begin? l else none)
    else if !l.dashes.isEmpty then r.item? l n items rest
    else
      match rest with
      | .mapping m entries key :: outer =>
        if m = n then
          { r with value := some (Block.toYaml r.value (.sequence n items)) }.pair? l m entries key outer
        else none
      | _ => none
  | .mapping n entries key :: rest =>
    if n < l.indent ∨ (!l.dashes.isEmpty ∧ r.value.isNone) then
      (if r.value.isNone then r.begin? l else none)
    else if l.dashes.isEmpty then r.pair? l n entries key rest
    else none

-- Lines of one scalar are joined by blanks; a blank line between them is a line break.
def fold? (r : Reading) (cs : List Char) : Option Reading :=
  let (text, tail) := plainPart false cs
  if tail.head? = some ':' then none
  else
    let joint := if r.gap = 0 then [' '] else List.replicate r.gap '\n'
    let text := (r.value.bind plainText?).getD "" ++ String.ofList (joint ++ trimSpaces text)
    some { r with value := some (.scalar text true), folds := tail.isEmpty, gap := 0 }

def isMarker (mark : String) (cs : List Char) : Bool :=
  cs.take 3 = mark.toList && (cs.drop 3).head?.all isSpace

def line? (r : Reading) (cs : List Char) : Option Reading :=
  let body := cs.dropWhile isSpace
  if body.isEmpty then some { r with gap := r.gap + 1 }
  else if body.head? = some '#' then some { r with folds := false }
  else if isMarker "---" cs then
    if r.started then none
    else (valueBehind? (cs.drop 3)).map fun value => { r with started := true }.put value
  else if isMarker "..." cs then some { r with ended := true, folds := false }
  else if r.ended then none
  else
    let indent := (cs.takeWhile (· = ' ')).length
    if r.folds ∧ r.blocks.head?.all (·.indent < indent) then r.fold? body
    else
      (Line.ofChars? 0 cs).bind fun l =>
        let (value, blocks) := close l.indent r.value r.blocks
        { r with blocks := blocks, value := value, started := true }.within? l

end Reading

def linesOf : List Char → List (List Char)
  | [] => [[]]
  | c :: rest =>
    let lines := linesOf rest
    if c = '\n' then [] :: lines
    else if c = '\r' ∧ rest.head? = some '\n' then lines
    else if c = '\r' then [] :: lines
    else (c :: lines.headD []) :: lines.tail

def isPrintable (c : Char) : Bool :=
  let n := c.toNat
  n = 9 || n = 10 || n = 13 || (0x20 ≤ n && n ≤ 0x7e) || n = 0x85
    || (0xa0 ≤ n && n ≠ 0xfeff && n ≠ 0xfffe && n ≠ 0xffff)

def parse? (s : String) : Option Yaml :=
  let cs := if s.toList.head? = some '\ufeff' then s.toList.tail else s.toList
  if cs.all isPrintable then
    ((linesOf cs).foldlM Reading.line? {}).map fun r =>
      (r.blocks.foldl (fun value block => some (block.toYaml value)) r.value).getD nothing
  else none

end Yaml

end Waterfall
